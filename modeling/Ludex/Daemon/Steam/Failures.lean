import Ludex.Daemon.Steam.Rotation
import Ludex.Daemon.Steam.Startup
import Ludex.Daemon.Steam.StateChange

/-!
# Failures of the file system

What the Steam source does when its accesses to the file system fail. A library that cannot be
opened, a manifest that cannot be read, and a log that is missing or cannot be read are skipped, or
tried again at the next wake-up; only a directory whose listing fails on the way ends the source
(`ScanEnd.failed`).

`Watching` is the source over its whole life, with a log that is written and replaced at any time.
It survives (`Watching.Survives`) if it runs, has started every game found in an entry that could be
read, will read every line, and can still stop every game it has started. A run survives in every
state if and only if no listing fails on the way, and the log can be read on (`survives_iff`).
-/

namespace Ludex

namespace Steam

open Lines Run Switches

/-! ### Reading on -/

/-- The lines read are those between the place where reading began and a position. -/
def Rotating.ReadUpTo (s : Rotating) (position : ℕ) : Prop :=
  ∃ front body tail, s.content = front ++ (body ++ tail) ∧ s.begun = front.length ∧
    position = (front ++ body).length ∧ Terminated lf body ∧ s.read = lines lf body

/-- The lines read have been fed, and a cursor that is not stale is where reading has come to. Where
it began need not be the start of a line. -/
structure Rotating.Reads (s : Rotating) : Prop where
  fed : Fed s.base s.read s.source
  stale : s.stale = true → s.read = [] ∧ s.begun = 0
  fresh : s.stale = false → s.ReadUpTo s.cursor

/-- The source knows where it is, and every complete line behind can be read. -/
def Rotating.Legible (s : Rotating) : Prop := s.Located ∧ Readable s.content s.start

instance (s : Rotating) : Decidable s.Legible :=
  inferInstanceAs (Decidable ((_ → _ ∨ _ ∨ _) ∧ ∀ line ∈ lines lf (s.content.drop s.start), _ ∧ _))

/-- A number of drains, around which nothing changes. -/
def Rotating.drains (outlet : DrainOutlet) (n : ℕ) (s : Rotating) : Rotating :=
  (fun s => s.drain outlet)^[n] s

section Drains

variable {s : Rotating} {position : ℕ}

theorem Rotating.ReadUpTo.le (h : s.ReadUpTo position) : position ≤ s.content.length := by
  obtain ⟨front, body, tail, h_content, -, rfl, -, -⟩ := h
  rw [h_content, ← List.append_assoc]
  exact (List.prefix_append _ tail).length_le

theorem Rotating.ReadUpTo.lines_eq (h : s.ReadUpTo position) :
    lines lf (s.content.drop s.begun) = s.read ++ lines lf (s.content.drop position) := by
  obtain ⟨front, body, tail, h_content, h_begun, rfl, h_body, h_read⟩ := h
  rw [h_content, h_begun, h_read, List.drop_left, ← List.append_assoc, List.drop_left]
  exact lines_append h_body tail

theorem Rotating.ReadUpTo.append (h : s.ReadUpTo position) (new : List UInt8) :
    Rotating.ReadUpTo (s.apply (.append new)) position := by
  obtain ⟨front, body, tail, h_content, h_begun, h_position, h_body, h_read⟩ := h
  refine ⟨front, body, tail ++ new, ?_, h_begun, h_position, h_body, h_read⟩
  show s.content ++ new = _
  rw [h_content, List.append_assoc, List.append_assoc]

theorem Rotating.start_le (s : Rotating) : s.start ≤ s.content.length := by
  unfold Rotating.start Steam.start
  by_cases h_short : s.content.length < s.cursor
  · rw [if_pos h_short]
    exact Nat.zero_le _
  · rw [if_neg h_short]
    exact not_lt.mp h_short

/-- What is behind the start of a drain is what it takes and what it leaves. -/
theorem Rotating.drop_start (s : Rotating) (outlet : DrainOutlet) :
    s.content.drop s.start =
      taken s.content s.start ++ (s.drain outlet).content.drop (s.drain outlet).start := by
  obtain ⟨rest, h_drop⟩ := taken_isPrefix s.content s.start
  have h_rest : s.content.drop (s.start + (taken s.content s.start).length) = rest := by
    rw [← List.drop_drop, ← h_drop, List.drop_left]
  have h_len := congrArg List.length h_drop
  rw [List.length_append, List.length_drop] at h_len
  have h_start : (s.drain outlet).start = s.start + (taken s.content s.start).length := by
    rw [← s.drain_cursor outlet]
    refine if_neg (not_lt.mpr ?_)
    show (s.drain outlet).cursor ≤ s.content.length
    rw [s.drain_cursor outlet]
    have h_le := s.start_le
    omega
  rw [h_start]
  show _ = _ ++ s.content.drop _
  rw [h_rest]
  exact h_drop.symm

theorem Rotating.lines_start (s : Rotating) (outlet : DrainOutlet) :
    lines lf (s.content.drop s.start) = lines lf (taken s.content s.start) ++
      lines lf ((s.drain outlet).content.drop (s.drain outlet).start) := by
  rw [s.drop_start outlet]
  exact lines_append (taken_terminated _ _) _

/-- Reading goes on behind what a drain takes. -/
theorem Rotating.ReadUpTo.drain (h : s.ReadUpTo s.start) (outlet : DrainOutlet) :
    (s.drain outlet).ReadUpTo (s.drain outlet).cursor := by
  obtain ⟨front, body, tail, h_content, h_begun, h_start, h_body, h_read⟩ := h
  obtain ⟨rest, h_drop⟩ := taken_isPrefix s.content s.start
  have h_tail : s.content.drop s.start = tail := by
    rw [h_content, h_start, ← List.append_assoc, List.drop_left]
  refine ⟨front, body ++ taken s.content s.start, rest, ?_, h_begun, ?_, ?_, ?_⟩
  · show s.content = _
    rw [List.append_assoc body, h_drop, h_tail]
    exact h_content
  · calc (s.drain outlet).cursor
        = s.start + (taken s.content s.start).length := s.drain_cursor outlet
      _ = (front ++ body).length + (taken s.content s.start).length := congrArg (· + _) h_start
      _ = (front ++ (body ++ taken s.content s.start)).length := by
        rw [← List.append_assoc]
        exact List.length_append.symm
  · exact h_body.append (taken_terminated _ _)
  · show s.read ++ lines lf (taken s.content s.start) = _
    rw [h_read, lines_append h_body]

theorem Rotating.Reads.start_eq (h : s.Reads) (h_fresh : s.stale = false) : s.start = s.cursor :=
  if_neg (not_lt.mpr (h.fresh h_fresh).le)

/-- A drain that knows where it is goes on where reading has come to, or there is nothing to read. -/
theorem Rotating.Reads.located (h : s.Reads) (h_located : s.Located) :
    s.ReadUpTo s.start ∧ (s.stale = true → s.start = 0) ∨
      s.stale = true ∧ s.start ≠ 0 ∧ lf ∉ s.content := by
  cases h_stale : s.stale with
  | false =>
    refine .inl ⟨?_, fun h_true => nomatch h_true⟩
    rw [h.start_eq h_stale]
    exact h.fresh h_stale
  | true =>
    obtain ⟨h_read, h_begun⟩ := h.stale h_stale
    by_cases h_zero : s.start = 0
    · refine .inl ⟨⟨[], [], s.content, rfl, h_begun, h_zero, .inl rfl, h_read⟩, fun _ => h_zero⟩
    · exact .inr ⟨rfl, h_zero, h_located.notMem h_stale h_zero⟩

/-- **A drain that knows where it is** reads on. -/
theorem Rotating.Reads.drain (h : s.Reads) {outlet : DrainOutlet} (h_located : s.Located)
    (h_alive : ∀ sent, outlet.alive sent = true) : (s.drain outlet).Reads where
  fed := h.fed.trans (drainLines_fed h_alive s.content s.cursor s.source)
  stale := by
    intro h_stale
    obtain ⟨h_old, h_start⟩ := Bool.and_eq_true_iff.mp h_stale
    obtain ⟨h_read, h_begun⟩ := h.stale h_old
    refine ⟨?_, h_begun⟩
    show s.read ++ lines lf (taken s.content s.start) = []
    rw [h_read, taken_of_notMem (h_located.notMem h_old (of_decide_eq_true h_start))]
    rfl
  fresh := by
    intro h_fresh
    rcases h.located h_located with ⟨h_upTo, -⟩ | ⟨h_stale, h_start, -⟩
    · exact h_upTo.drain outlet
    · have h_still : (s.drain outlet).stale = true := by
        show (s.stale && decide (s.start ≠ 0)) = true
        rw [h_stale, decide_eq_true h_start]
        rfl
      rw [h_still] at h_fresh
      exact nomatch h_fresh

/-- A drain leaves a log legible. -/
theorem Rotating.Legible.drain (h : s.Legible) (outlet : DrainOutlet) : (s.drain outlet).Legible := by
  refine ⟨fun h_stale => ?_, fun line h_mem => h.2 line ?_⟩
  · obtain ⟨h_old, h_start⟩ := Bool.and_eq_true_iff.mp h_stale
    exact .inr (.inr (h.1.notMem h_old (of_decide_eq_true h_start)))
  · rw [s.lines_start outlet]
    exact List.mem_append_right _ h_mem

/-- Nothing is left to read behind the start of a drain. -/
theorem Rotating.Reads.all_read (h : s.Reads) (h_located : s.Located)
    (h_none : lines lf (s.content.drop s.start) = []) :
    s.read = lines lf (s.content.drop s.begun) := by
  rcases h.located h_located with ⟨h_upTo, -⟩ | ⟨h_stale, -, h_notMem⟩
  · rw [h_upTo.lines_eq, h_none, List.append_nil]
  · rw [(h.stale h_stale).1, lines_of_notMem fun h_mem => h_notMem (List.mem_of_mem_drop h_mem)]

/-- **A legible log is read to its end**, by as many drains as it takes. -/
theorem Rotating.Reads.drains_all (h : s.Reads) (h_legible : s.Legible) {outlet : DrainOutlet}
    (h_alive : ∀ sent, outlet.alive sent = true) :
    ∃ n, (s.drains outlet n).read = lines lf (s.content.drop s.begun) ∧
      Fed s.base (s.drains outlet n).read (s.drains outlet n).source := by
  -- by induction on the number of lines that are left
  generalize h_left : (lines lf (s.content.drop s.start)).length = left
  induction left using Nat.strong_induction_on generalizing s with
  | _ left ih =>
    by_cases h_mem : lf ∈ s.content.drop s.start
    · have h_fewer : (lines lf ((s.drain outlet).content.drop (s.drain outlet).start)).length <
          left := by
        have h_new : lines lf (taken s.content s.start) ≠ [] := by
          intro h_nil
          have h_flat := flatten_lines lf (taken s.content s.start)
          rw [h_nil, (taken_terminated _ _).eq] at h_flat
          exact h_legible.2.taken_ne_nil h_mem h_flat.symm
        have h_pos := List.length_pos_iff.mpr h_new
        rw [← h_left, s.lines_start outlet, List.length_append]
        omega
      obtain ⟨n, h_all, h_fed⟩ := ih _ h_fewer (h.drain h_legible.1 h_alive)
        (h_legible.drain outlet) rfl
      exact ⟨n + 1, h_all, h_fed⟩
    · exact ⟨0, h.all_read h_legible.1 (lines_of_notMem h_mem), h.fed⟩

/-- What a number of drains has read: complete lines that fit and are text. -/
theorem Rotating.drains_read (s : Rotating) (outlet : DrainOutlet) (n : ℕ) :
    ∃ passed, passed <+: s.content.drop s.start ∧ Terminated lf passed ∧
      (∀ line ∈ lines lf passed, line.length ≤ maxDrainBytes ∧ (decode line).isSome = true) ∧
      (s.drains outlet n).read = s.read ++ lines lf passed := by
  -- by induction on the drains: what each has read is put before what the others will read
  induction n generalizing s with
  | zero =>
    exact ⟨[], List.nil_prefix, .inl rfl, fun line h_mem => absurd h_mem List.not_mem_nil,
      (List.append_nil _).symm⟩
  | succ n ih =>
    obtain ⟨passed, h_prefix, h_passed, h_fits, h_read⟩ := ih (s.drain outlet)
    have h_new := taken_terminated s.content s.start
    refine ⟨taken s.content s.start ++ passed, ?_, h_new.append h_passed, ?_, ?_⟩
    · -- the next drain starts where this one has stopped
      rw [s.drop_start outlet]
      exact (List.prefix_append_right_inj _).mpr h_prefix
    · intro line h_mem
      rw [lines_append h_new] at h_mem
      rcases List.mem_append.mp h_mem with h_mem | h_mem
      · -- a line is not longer than what was taken, and all of that decodes
        refine ⟨(length_le_of_mem_lines h_mem).trans (taken_length_le _ _), ?_⟩
        rw [h_new.lines_eq] at h_mem
        exact (decode_isSome_iff h_new).mp (taken_decodes _ _) line h_mem
      · exact h_fits line h_mem
    · rw [lines_append h_new, ← List.append_assoc]
      exact h_read

/-- **Only a legible log is read to its end.** -/
theorem Rotating.Reads.legible_of_drains (h : s.Reads) {outlet : DrainOutlet} {n : ℕ}
    (h_all : (s.drains outlet n).read = lines lf (s.content.drop s.begun)) : s.Legible := by
  obtain ⟨passed, h_prefix, h_passed, h_fits, h_read⟩ := s.drains_read outlet n
  rw [h_all] at h_read
  cases h_stale : s.stale with
  | false =>
    -- the lines passed are those that were left
    rw [(h.fresh h_stale).lines_eq, ← h.start_eq h_stale] at h_read
    refine ⟨fun h_true => absurd (h_stale.symm.trans h_true) Bool.false_ne_true, fun line h_mem => ?_⟩
    rw [List.append_cancel_left h_read] at h_mem
    exact h_fits line h_mem
  | true =>
    obtain ⟨h_none, h_begun⟩ := h.stale h_stale
    rw [h_none, h_begun, List.drop_zero, List.nil_append] at h_read
    by_cases h_start : s.start = 0
    · refine ⟨fun _ => ?_, fun line h_mem => h_fits line ?_⟩
      · by_cases h_short : s.content.length < s.cursor
        · exact .inl h_short
        · exact .inr (.inl ((if_neg h_short).symm.trans h_start))
      · rw [h_start, List.drop_zero] at h_mem
        rwa [← h_read]
    · -- the lines before the cursor have not been passed, so there are none at all
      have h_flat := congrArg List.flatten h_read
      rw [flatten_lines, flatten_lines, h_passed.eq] at h_flat
      have h_notMem := notMem_of_terminated_eq h_start h_passed h_prefix h_flat.symm
      refine ⟨fun _ => .inr (.inr h_notMem), fun line h_mem => ?_⟩
      rw [lines_of_notMem fun h => h_notMem (List.mem_of_mem_drop h)] at h_mem
      exact absurd h_mem List.not_mem_nil

/-- **A log is read to its end** exactly if it is legible. -/
theorem Rotating.Reads.drains_all_iff (h : s.Reads) {outlet : DrainOutlet}
    (h_alive : ∀ sent, outlet.alive sent = true) :
    (∃ n, (s.drains outlet n).read = lines lf (s.content.drop s.begun) ∧
      Fed s.base (s.drains outlet n).read (s.drains outlet n).source) ↔ s.Legible := by
  refine ⟨?_, fun h_legible => h.drains_all h_legible h_alive⟩
  rintro ⟨n, h_all, -⟩
  exact h.legible_of_drains h_all

end Drains

/-! ### Games that can be stopped -/

/-- A line that reports the game as stopped fits into one read. -/
structure Stoppable (appid : String) : Prop where
  digits : appid.toList.all Text.isAsciiDigit = true
  nonempty : appid.toList ≠ []
  fits : appid.toList.length + 26 ≤ maxDrainBytes

/-- A line that reports the game as stopped. -/
def stopLine (appid : String) : List Char :=
  "] AppID ".toList ++ (appid.toList ++ ' ' :: ("state changed : ".toList ++ ['\n']))

theorem Stoppable.parse {appid : String} (h : Stoppable appid) :
    parseStateChange (stopLine appid) = some (appid, false) := by
  have h_reports : Reports (stopLine appid) appid ['\n'] :=
    ⟨⟨h.nonempty, List.all_eq_true.mp h.digits⟩, [], rfl, fun _ _ _ => Nat.zero_le _⟩
  have h_flags : ¬ SaysRunning ['\n'] := by decide +kernel
  exact parseStateChange_eq_some_iff.mpr ⟨_, h_reports, iff_of_false Bool.false_ne_true h_flags⟩

/-- A text has at most as many characters as bytes. -/
theorem length_le_encode (cs : List Char) : cs.length ≤ (encode cs).length := by
  induction cs with
  | nil => exact le_rfl
  | cons c cs ih =>
    have h_pos := c.utf8Size_pos
    rw [encode_cons, List.length_append, String.length_utf8EncodeChar, List.length_cons]
    omega

theorem length_encode_digits {cs : List Char} (h : cs.all Text.isAsciiDigit = true) :
    (encode cs).length = cs.length := by
  induction cs with
  | nil => rfl
  | cons c cs ih =>
    rw [List.all_cons, Bool.and_eq_true] at h
    have h_size : c.utf8Size = 1 := by
      have h_nine : c ≤ '9' := of_decide_eq_true (Bool.and_eq_true_iff.mp h.1).2
      refine Char.utf8Size_eq_one_iff.mpr ?_
      exact UInt32.le_trans (show c.val ≤ '9'.val from h_nine) (by decide)
    rw [encode_cons, List.length_append, String.length_utf8EncodeChar, h_size, ih h.2,
      List.length_cons, Nat.add_comm]

/-- The line is read as it stands. -/
theorem Stoppable.readLine {appid : String} (h : Stoppable appid) :
    readLine (encode (stopLine appid)) = some (appid, false) := by
  unfold Steam.readLine
  rw [decode_encode]
  exact h.parse

theorem Stoppable.line_length {appid : String} (h : Stoppable appid) :
    (encode (stopLine appid)).length ≤ maxDrainBytes := by
  have h_length : (encode (stopLine appid)).length = appid.toList.length + 26 := by
    have h_front : (encode "] AppID ".toList).length = 8 := by decide +kernel
    have h_back : (encode (' ' :: ("state changed : ".toList ++ ['\n']))).length = 18 := by
      decide +kernel
    unfold stopLine
    rw [encode_append, encode_append, List.length_append, List.length_append, h_front, h_back,
      length_encode_digits h.digits]
    omega
  rw [h_length]
  exact h.fits

/-- The line is one complete line. -/
theorem Stoppable.terminated {appid : String} : Terminated lf (encode (stopLine appid)) := by
  refine .inr ⟨encode ("] AppID ".toList ++ (appid.toList ++ ' ' :: "state changed : ".toList)), ?_⟩
  unfold stopLine
  rw [← List.cons_append, ← List.append_assoc appid.toList, ← List.append_assoc, encode_append]
  rfl

theorem Stoppable.lines {appid : String} (h : Stoppable appid) :
    lines lf (encode (stopLine appid)) = [encode (stopLine appid)] := by
  have h_body : '\n' ∉ "] AppID ".toList ++ (appid.toList ++ ' ' :: "state changed : ".toList) := by
    rw [List.mem_append, List.mem_append, not_or, not_or]
    refine ⟨by decide, fun h_mem => ?_, by decide⟩
    exact absurd (List.all_eq_true.mp h.digits '\n' h_mem) (by decide)
  have h_split : stopLine appid =
      ("] AppID ".toList ++ (appid.toList ++ ' ' :: "state changed : ".toList)) ++ ['\n'] := by
    unfold stopLine
    rw [List.append_assoc, List.append_assoc, List.cons_append]
  rw [terminated.lines_eq, splitInclusive_encode, h_split, splitInclusive_line h_body]
  rfl

/-- A game whose start a line reports can be stopped, if the line could be read. -/
theorem stoppable_of_readLine {line : List UInt8} {appid : String}
    (h_read : readLine line = some (appid, true)) (h_fits : line.length ≤ maxDrainBytes) :
    Stoppable appid := by
  obtain ⟨cs, h_decode, h_parse⟩ := Option.bind_eq_some_iff.mp h_read
  rw [decode_eq_some] at h_decode
  obtain ⟨flags, ⟨⟨h_nonempty, h_digits⟩, before, h_first⟩, h_running⟩ :=
    parseStateChange_eq_some_iff.mp h_parse
  -- without a flag the game would not be reported to run
  have h_flag : flags ≠ [] := by
    rintro rfl
    exact absurd (h_running.mp rfl) (by decide +kernel)
  have h_pos := List.length_pos_iff.mpr h_flag
  have h_length := length_le_encode cs
  rw [h_decode, h_first.1] at h_length
  simp only [List.length_append, show appidMark.length = 8 by decide,
    show flagsMark.length = 17 by decide] at h_length
  exact ⟨List.all_eq_true.mpr h_digits, h_nonempty, by omega⟩

/-- A game that is found in a manifest can be stopped, if the name of the file is no longer than the
file system allows. -/
theorem stoppable_of_game {entry : DirEntry} {appid : String} {manifest : Manifest}
    (h_game : entry.game = some (appid, manifest))
    (h_name : ∀ fileName ∈ entry.fileName, fileName.length ≤ 255) : Stoppable appid := by
  -- the name of the file and the manifest in it say the same appid
  have h_bind : entry.fileName.bind appidOfFileName = some appid := by
    unfold DirEntry.game at h_game
    cases h_file : entry.fileName.bind appidOfFileName with
    | none =>
      rw [h_file] at h_game
      exact nomatch h_game
    | some appid' =>
      rw [h_file] at h_game
      cases h_manifest : entry.manifest with
      | none =>
        rw [h_manifest] at h_game
        exact nomatch h_game
      | some manifest' =>
        rw [h_manifest] at h_game
        rw [(Prod.mk.inj (Option.some.inj h_game)).1]
  obtain ⟨fileName, h_file, h_appid⟩ := Option.bind_eq_some_iff.mp h_bind
  unfold appidOfFileName at h_appid
  obtain ⟨digits, h_strip, h_some⟩ := Option.bind_eq_some_iff.mp h_appid
  obtain ⟨rest, h_front, h_back⟩ := Option.bind_eq_some_iff.mp h_strip
  -- the digits of the appid are what is left of a file name of bounded length
  by_cases h_digits : digits ≠ [] ∧ digits.all Text.isAsciiDigit = true
  · rw [if_pos h_digits] at h_some
    obtain rfl := Option.some.inj h_some
    have h_length := h_name fileName h_file
    rw [← String.length_toList, Text.eq_append_of_stripPrefix h_front,
      Text.eq_append_of_stripSuffix h_back] at h_length
    simp only [List.length_append] at h_length
    refine ⟨?_, ?_, ?_⟩
    · rw [String.toList_ofList]
      exact h_digits.2
    · rw [String.toList_ofList]
      exact h_digits.1
    · rw [String.toList_ofList]
      show digits.length + 26 ≤ 4 * 1024 * 1024
      omega
  · rw [if_neg h_digits] at h_some
    exact nomatch h_some

/-! ### The source over its whole life -/

/-- How far the source has come. -/
inductive Stage where
  | scanning
  | locating
  | tailing
  /-- The scan has failed, and the source with it. -/
  | stopped
deriving DecidableEq

/-- The log, the source that watches it, and how far it has come. -/
structure Watching extends Rotating where
  stage : Stage

/-- A source that is about to scan. -/
def Watching.starting (log : List UInt8) : Watching := ⟨.starting log 0 {}, .scanning⟩

/-- What happens next. -/
inductive Happening where
  | append (new : List UInt8)
  /-- The log is replaced by a fresh file, or truncated. -/
  | rotate
  /-- The source takes its next step. The log may be missing, or its access to it may fail. -/
  | advance (accessible : Bool)

/-- The next step of the source. -/
def Watching.advance (proc : ProcSnapshot) (libraries : List Library) (outlet : DrainOutlet)
    (accessible : Bool) (s : Watching) : Watching :=
  match s.stage with
  | .scanning =>
    match coldStartScan proc outlet.toOutlet libraries s.source with
    | (source, .failed) => { s with source := source, stage := .stopped }
    | (source, _) => { s with source := source, stage := .locating }
  -- a length that cannot be read counts as zero
  | .locating =>
    ⟨.starting s.content (if accessible then s.content.length else 0) s.source, .tailing⟩
  | .tailing =>
    ⟨s.toRotating.apply (if accessible then .drain outlet else .failedDrain outlet), .tailing⟩
  | .stopped => s

def Watching.apply (proc : ProcSnapshot) (libraries : List Library) (outlet : DrainOutlet)
    (s : Watching) : Happening → Watching
  | .append new => ⟨s.toRotating.apply (.append new), s.stage⟩
  | .rotate => ⟨s.toRotating.apply .rotate, s.stage⟩
  | .advance accessible => s.advance proc libraries outlet accessible

/-- One happening after another. -/
def Watching.step (proc : ProcSnapshot) (libraries : List Library) (outlet : DrainOutlet)
    (s : Watching) (happening : Happening) (t : Watching) : Prop :=
  t = s.apply proc libraries outlet happening

/-- The entries of the libraries that can be opened. -/
def delivered (libraries : List Library) : List DirEntry :=
  libraries.flatMap fun library => (library.getD []).filterMap id

/-- No listing fails on the way. A library that cannot be opened is not listed. -/
def FullyListed (libraries : List Library) : Prop :=
  ∀ library ∈ libraries, ∀ entry ∈ library.getD [], entry.isSome = true

instance (libraries : List Library) : Decidable (FullyListed libraries) :=
  inferInstanceAs (Decidable (∀ library ∈ libraries, ∀ entry ∈ library.getD [], _))

/-- **The source survives**: it runs, it has started every game found in an entry that was delivered,
it will read every complete line of the log and send its event, and every game it has started can
still be stopped. -/
structure Watching.Survives (proc : ProcSnapshot) (libraries : List Library)
    (outlet : DrainOutlet) (s : Watching) : Prop where
  runs : s.stage ≠ .stopped
  started : s.stage ≠ .scanning → ∀ appid,
    Found (liveSteamAppids proc) (delivered libraries) appid → Started s.source.sent appid
  readsOn : s.stage = .tailing → ∃ n,
    (s.toRotating.drains outlet n).read = lines lf (s.content.drop s.begun) ∧
      Fed s.base (s.toRotating.drains outlet n).read (s.toRotating.drains outlet n).source
  stoppable : ∀ appid, Unmatched s.source.sent appid →
    ∃ tr, IsRun (Watching.step proc libraries outlet) s tr ∧
      ¬ Unmatched (final s tr).source.sent appid

/-- No listing has failed on the way, and the log can be read on. -/
def Watching.Undisturbed (libraries : List Library) (s : Watching) : Prop :=
  (s.stage ≠ .scanning → FullyListed libraries) ∧ (s.stage = .tailing → s.toRotating.Legible)

instance (libraries : List Library) (s : Watching) : Decidable (s.Undisturbed libraries) :=
  inferInstanceAs (Decidable ((_ → _) ∧ (_ → _)))

/-! ### How the scan ends -/

section Scan

variable {liveAppids : Option (List String)} {now : List GameEvent → OffsetDateTime}

theorem scanEntries_end (liveAppids : Option (List String)) (now : List GameEvent → OffsetDateTime)
    (entries : List (Option DirEntry)) (s : SourceState) :
    (scanEntries liveAppids (.receiving now) entries s).2 =
      if ∀ entry ∈ entries, entry.isSome = true then .completed else .failed := by
  induction entries generalizing s with
  | nil => rfl
  | cons entry entries ih =>
    cases entry with
    -- the first entry that cannot be read ends the scan
    | none => exact (if_neg fun h_all => nomatch h_all none List.mem_cons_self).symm
    | some entry =>
      have h_cons : (∀ e ∈ some entry :: entries, e.isSome = true) ↔
          ∀ e ∈ entries, e.isSome = true := by
        rw [List.forall_mem_cons]
        exact and_iff_right rfl
      rw [scanEntries]
      simp only [h_cons]
      cases h_game : entry.game with
      | none => exact ih s
      | some game =>
        obtain ⟨appid, manifest⟩ := game
        show (if _ then _ else _ : SourceState × ScanEnd).2 = _
        -- whether a game is announced or not, the scan goes on
        by_cases h_new : isRunning liveAppids appid manifest ∧ appid ∉ s.running
        · rw [if_pos h_new]
          exact ih _
        · rw [if_neg h_new]
          exact ih s

/-- **The scan fails exactly where a listing does.** -/
theorem coldStartScanWith_end (liveAppids : Option (List String))
    (now : List GameEvent → OffsetDateTime) (libraries : List Library) (s : SourceState) :
    (coldStartScanWith liveAppids (.receiving now) libraries s).2 =
      if FullyListed libraries then .completed else .failed := by
  induction libraries generalizing s with
  | nil => rfl
  | cons library libraries ih =>
    have h_cons : FullyListed (library :: libraries) ↔
        (∀ entry ∈ library.getD [], entry.isSome = true) ∧ FullyListed libraries :=
      List.forall_mem_cons
    simp only [h_cons]
    cases library with
    -- a library that cannot be opened says nothing about the others
    | none =>
      show (coldStartScanWith liveAppids (.receiving now) libraries s).2 = _
      rw [ih]
      simp
    | some entries =>
      have h_entries := scanEntries_end liveAppids now entries s
      rw [coldStartScanWith]
      cases h_scan : scanEntries liveAppids (.receiving now) entries s with
      -- the entries of this library decide whether the scan gets to the next one
      | mk s' ended =>
        rw [h_scan] at h_entries
        by_cases h_all : ∀ entry ∈ entries, entry.isSome = true
        · obtain rfl : ended = .completed := h_entries.trans (if_pos h_all)
          show (coldStartScanWith liveAppids (.receiving now) libraries s').2 = _
          rw [ih]
          exact if_congr (and_iff_right h_all).symm rfl rfl
        · obtain rfl : ended = .failed := h_entries.trans (if_neg h_all)
          show ScanEnd.failed = _
          rw [if_neg]
          exact fun h_both => h_all h_both.1

/-- Libraries that are listed to their end are scanned like those that can be opened. -/
theorem coldStartScanWith_listing (liveAppids : Option (List String)) {libraries : List Library}
    (h : FullyListed libraries) :
    ∃ opened, delivered libraries = opened.flatten ∧ ∀ outlet s,
      coldStartScanWith liveAppids outlet libraries s =
        coldStartScanWith liveAppids outlet (listing opened) s := by
  induction libraries with
  | nil => exact ⟨[], rfl, fun _ _ => rfl⟩
  | cons library libraries ih =>
    obtain ⟨h_library, h_rest⟩ := List.forall_mem_cons.mp h
    obtain ⟨opened, h_delivered, h_scan⟩ := ih h_rest
    cases library with
    -- one that cannot be opened delivers nothing
    | none =>
      refine ⟨opened, ?_, fun outlet s => h_scan outlet s⟩
      show [] ++ delivered libraries = _
      exact h_delivered
    | some entries =>
      -- no entry is missing, so leaving out the missing ones changes nothing
      have h_entries : (entries.filterMap id).map some = entries := by
        have h_all : ∀ entry ∈ entries, entry.isSome = true := h_library
        clear h_library h
        induction entries with
        | nil => rfl
        | cons entry entries ih =>
          obtain ⟨h_entry, h_tail⟩ := List.forall_mem_cons.mp h_all
          obtain ⟨entry, rfl⟩ := Option.isSome_iff_exists.mp h_entry
          show some entry :: (entries.filterMap id).map some = _
          rw [ih h_tail]
      refine ⟨entries.filterMap id :: opened, ?_, fun outlet s => ?_⟩
      · show entries.filterMap id ++ delivered libraries = _
        rw [h_delivered]
        rfl
      · -- both scans go through the same entries, and then through what the induction is about
        show coldStartScanWith liveAppids outlet (some entries :: libraries) s =
          coldStartScanWith liveAppids outlet
            (some ((entries.filterMap id).map some) :: listing opened) s
        rw [h_entries, coldStartScanWith, coldStartScanWith]
        cases scanEntries liveAppids outlet entries s with
        | mk s' ended =>
          cases ended with
          | completed => exact h_scan outlet s'
          | aborted => rfl
          | failed => rfl

end Scan

/-! ### What the source knows -/

/-- The source holds the games it has started and not stopped for running, has started every game
that was found, and can stop those it holds. -/
structure Known (proc : ProcSnapshot) (libraries : List Library) (source : SourceState) : Prop where
  tracks : source.Tracks
  started : ∀ appid, Found (liveSteamAppids proc) (delivered libraries) appid →
    (GameKey.steam appid, true) ∈ source.sent.map mark
  stoppable : ∀ appid ∈ source.running, Stoppable appid

theorem started_iff {sent : List GameEvent} {appid : String} :
    Started sent appid ↔ (GameKey.steam appid, true) ∈ sent.map mark := by
  unfold Started
  rw [List.mem_map]
  refine ⟨?_, ?_⟩
  · rintro ⟨displayName, executablePath, at_, h_mem⟩
    exact ⟨_, h_mem, rfl⟩
  · rintro ⟨event, h_mem, h_mark⟩
    cases event with
    | started key displayName executablePath at_ =>
      obtain rfl : key = _ := (Prod.mk.inj h_mark).1
      exact ⟨displayName, executablePath, at_, h_mem⟩
    | stopped key at_ => exact nomatch (Prod.mk.inj h_mark).2

/-- A game that lines put into the running set was there, or a line reports its start. -/
theorem mem_feed {running : Finset String} {fed : List (List UInt8)} {appid : String}
    (h : appid ∈ (feed running fed).1) :
    appid ∈ running ∨ ∃ line ∈ fed, readLine line = some (appid, true) := by
  rw [feed_running, mem_foldl_put_iff] at h
  -- the last line about the game put it on, or there is none
  rcases h with h_last | ⟨-, h_mem⟩
  · right
    have h_about := List.mem_of_getLast? h_last
    unfold about at h_about
    obtain ⟨⟨key, up⟩, h_switch, h_up⟩ := List.mem_map.mp h_about
    obtain ⟨h_reported, h_key⟩ := List.mem_filter.mp h_switch
    obtain rfl : key = appid := of_decide_eq_true h_key
    obtain rfl : up = true := h_up
    exact List.mem_filterMap.mp h_reported
  · exact .inl h_mem

theorem Known.fed {proc : ProcSnapshot} {libraries : List Library} {source source' : SourceState}
    {fed : List (List UInt8)} (h : Known proc libraries source) (h_fed : Fed source fed source')
    (h_fits : ∀ line ∈ fed, line.length ≤ maxDrainBytes) : Known proc libraries source' where
  tracks := h.tracks.fed h_fed
  started := by
    intro appid h_found
    rw [h_fed.marks]
    exact List.mem_append_left _ (h.started appid h_found)
  stoppable := by
    intro appid h_mem
    rw [h_fed.running] at h_mem
    -- the game was found by the scan, or in a line, which is short enough for a stop line to fit
    rcases mem_feed h_mem with h_mem | ⟨line, h_line, h_read⟩
    · exact h.stoppable appid h_mem
    · exact stoppable_of_readLine h_read (h_fits line h_line)

section Life

variable {proc : ProcSnapshot} {libraries : List Library} {now : List GameEvent → OffsetDateTime}
  {resolveName : List GameEvent → String → String}

/-- **The scan** of libraries that are listed to their end leaves a source that knows what was found. -/
theorem coldStartScan_known (h_listed : FullyListed libraries)
    (h_names : ∀ entry ∈ delivered libraries, ∀ fileName ∈ entry.fileName, fileName.length ≤ 255) :
    ∃ source, coldStartScan proc (.receiving now) libraries {} = (source, .completed) ∧
      Known proc libraries source := by
  obtain ⟨opened, h_delivered, h_same⟩ :=
    coldStartScanWith_listing (liveSteamAppids proc) h_listed
  -- without failures the scan is the one of the listings, whose outcome is known
  obtain ⟨source, h_scan, h_known, h_running⟩ :
      ∃ s, coldStartScanWith (liveSteamAppids proc) (.receiving now) (listing opened) {} =
          (s, .completed) ∧ (s.Tracks ∧ s.Consistent) ∧
        ∀ appid, appid ∈ s.running ↔
          appid ∈ (∅ : Finset String) ∨ Found (liveSteamAppids proc) opened.flatten appid := by
    refine coldStartScanWith_found (P := fun s => s.Tracks ∧ s.Consistent) ?_ opened ⟨?_, ?_⟩
    · intro s h_s appid manifest at_ _
      exact ⟨h_s.1.started appid manifest at_, h_s.2.started appid manifest at_⟩
    · exact fun appid => rfl
    · intro appid
      refine iff_of_false ?_ (Finset.notMem_empty appid)
      rintro ⟨_, _, _, h_mem⟩
      exact List.not_mem_nil h_mem
  have h_found : ∀ appid, appid ∈ source.running ↔
      Found (liveSteamAppids proc) (delivered libraries) appid := by
    intro appid
    rw [h_running, h_delivered]
    exact or_iff_right (Finset.notMem_empty appid)
  refine ⟨source, (h_same _ _).trans h_scan, h_known.1, fun appid h_appid => ?_, fun appid h_mem => ?_⟩
  · -- what is found has been started, and its name is not longer than a file name can be
    rw [← started_iff, h_known.2 appid, h_found]
    exact h_appid
  · obtain ⟨entry, h_entry, manifest, h_game, -⟩ := (h_found appid).mp h_mem
    exact stoppable_of_game h_game (h_names entry h_entry)

/-- The lines a drain takes fit. -/
theorem taken_fits (content : List UInt8) (start : ℕ) :
    ∀ line ∈ lines lf (taken content start), line.length ≤ maxDrainBytes :=
  fun _ h_mem => (length_le_of_mem_lines h_mem).trans (taken_length_le content start)

/-! ### A game can be stopped -/

/-- The log is replaced, and its first line reports the game as stopped. -/
def stopping (appid : String) : List Happening :=
  [.rotate, .advance true, .append (encode (stopLine appid)), .advance true]

/-- A drain of an empty log sets the cursor back, and sends nothing. -/
theorem drain_empty (outlet : DrainOutlet) (h_alive : ∀ sent, outlet.alive sent = true)
    {s : Rotating} (h_empty : s.content = []) :
    (s.drain outlet).cursor = 0 ∧ Fed s.source [] (s.drain outlet).source := by
  -- an empty file leaves nothing to take, wherever the cursor was
  have h_start : s.start = 0 := by
    have h_le := s.start_le
    rw [h_empty] at h_le
    exact Nat.le_zero.mp h_le
  have h_taken : taken s.content s.start = [] :=
    taken_of_notMem (by rw [h_empty]; exact List.not_mem_nil) _
  refine ⟨?_, ?_⟩
  · rw [s.drain_cursor outlet, h_taken, h_start]
    rfl
  · have h_fed : Fed s.source (lines lf (taken s.content s.start)) (s.drain outlet).source :=
      drainLines_fed h_alive s.content s.cursor s.source
    rwa [h_taken] at h_fed

/-- A drain of a log that is one stop line feeds it. -/
theorem drain_stopLine (outlet : DrainOutlet) (h_alive : ∀ sent, outlet.alive sent = true)
    {s : Rotating} {appid : String} (h : Stoppable appid)
    (h_content : s.content = encode (stopLine appid)) (h_cursor : s.cursor = 0) :
    Fed s.source [encode (stopLine appid)] (s.drain outlet).source := by
  -- the cursor is at the beginning, so all of the file is new and fits
  have h_start : s.start = 0 := by
    show (if s.content.length < s.cursor then 0 else s.cursor) = 0
    rw [h_cursor, ite_self]
  have h_all : terminated lf (s.content.drop s.start) = encode (stopLine appid) := by
    rw [h_start, List.drop_zero, h_content]
    exact Stoppable.terminated.eq
  have h_fits : Fits s.content s.start := by
    unfold Fits
    rw [h_all, decode_encode]
    exact ⟨h.line_length, rfl⟩
  have h_fed : Fed s.source (lines lf (taken s.content s.start)) (s.drain outlet).source :=
    drainLines_fed h_alive s.content s.cursor s.source
  rwa [taken_eq_iff.mpr h_fits, h_all, h.lines] at h_fed

/-- **A source that tails can stop every game** it holds. -/
theorem Known.stop {s : Watching} (h_stage : s.stage = .tailing)
    (h : Known proc libraries s.source) {appid : String} (h_mem : appid ∈ s.source.running) :
    ¬ Unmatched ((stopping appid).foldl
      (Watching.apply proc libraries ⟨.receiving now, resolveName⟩) s).source.sent appid := by
  obtain ⟨r, stage⟩ := s
  obtain rfl : stage = .tailing := h_stage
  have h_stop := h.stoppable appid h_mem
  have h_alive : ∀ sent, (Outlet.receiving now).alive sent = true := fun _ => rfl
  -- the drain of the empty file
  obtain ⟨h_cursor, h_fed⟩ :=
    drain_empty ⟨.receiving now, resolveName⟩ h_alive (s := r.apply .rotate) rfl
  -- the drain of the line
  have h_fed' := drain_stopLine ⟨.receiving now, resolveName⟩ h_alive
    (s := Rotating.apply (Rotating.drain (r.apply .rotate) ⟨.receiving now, resolveName⟩)
      (.append (encode (stopLine appid)))) h_stop rfl h_cursor
  have h_both := h_fed.trans h_fed'
  have h_gone : appid ∉ (feed r.source.running ([] ++ [encode (stopLine appid)])).1 := by
    rw [feed_running, List.nil_append, List.filterMap_cons_some h_stop.readLine]
    exact Finset.notMem_erase appid _
  have h_matched := mt ((h.tracks.fed h_both).unmatched appid).mp
  rw [h_both.running] at h_matched
  exact h_matched h_gone

/-! ### The invariant -/

/-- What holds of the source in each stage. -/
def Watching.Inv (proc : ProcSnapshot) (libraries : List Library) (s : Watching) : Prop :=
  match s.stage with
  | .scanning => s.source = {}
  | .locating => FullyListed libraries ∧ Known proc libraries s.source
  | .tailing => FullyListed libraries ∧ Known proc libraries s.source ∧ s.toRotating.Reads
  | .stopped => ¬ FullyListed libraries

/-- Replacing or writing the log changes nothing that is known of the source. -/
theorem Watching.Inv.log {r : Rotating} {stage : Stage} {move : LogMove}
    (h : Watching.Inv proc libraries ⟨r, stage⟩) (h_source : (r.apply move).source = r.source)
    (h_reads : r.Reads → (r.apply move).Reads) :
    Watching.Inv proc libraries ⟨r.apply move, stage⟩ := by
  cases stage with
  | scanning => exact h_source.trans h
  | locating => exact ⟨h.1, by rw [h_source]; exact h.2⟩
  | tailing => exact ⟨h.1, by rw [h_source]; exact h.2.1, h_reads h.2.2⟩
  | stopped => exact h

theorem Rotating.Reads.append {s : Rotating} (h : s.Reads) (new : List UInt8) :
    (s.apply (.append new)).Reads where
  fed := h.fed
  stale := h.stale
  fresh := fun h_fresh => (h.fresh h_fresh).append new

theorem Rotating.Reads.rotate (s : Rotating) : (s.apply .rotate).Reads where
  fed := .nil s.source
  stale := fun _ => ⟨rfl, rfl⟩
  fresh := fun h_fresh => nomatch h_fresh

/-- A source that starts to tail has read nothing. -/
theorem Rotating.Reads.starting {content : List UInt8} {cursor : ℕ} (h : cursor ≤ content.length)
    (source : SourceState) : (Rotating.starting content cursor source).Reads where
  fed := .nil source
  stale := fun h_stale => nomatch h_stale
  fresh := by
    intro _
    refine ⟨content.take cursor, [], content.drop cursor, ?_, ?_, ?_, .inl rfl, rfl⟩
    · exact (List.take_append_drop cursor content).symm
    · exact (List.length_take_of_le h).symm
    · rw [List.append_nil]
      exact (List.length_take_of_le h).symm

/-- **One happening** keeps the invariant, while nothing is disturbed. -/
theorem Watching.Inv.step {s t : Watching} {happening : Happening}
    (h_names : ∀ entry ∈ delivered libraries, ∀ fileName ∈ entry.fileName, fileName.length ≤ 255)
    (h_step : s.step proc libraries ⟨.receiving now, resolveName⟩ happening t)
    (h_undisturbed : s.Undisturbed libraries) (h : s.Inv proc libraries) :
    t.Inv proc libraries := by
  obtain rfl := h_step
  obtain ⟨r, stage⟩ := s
  -- what Steam does to the log, then what the source does in each of its stages
  cases happening with
  | append new => exact h.log rfl fun h_reads => h_reads.append new
  | rotate => exact h.log rfl fun _ => .rotate r
  | advance accessible =>
    cases stage with
    | scanning =>
      show Watching.Inv proc libraries (match coldStartScan proc (.receiving now) libraries r.source with
        | (source, .failed) => _
        | (source, _) => _)
      rw [show r.source = {} from h]
      by_cases h_listed : FullyListed libraries
      · obtain ⟨source, h_scan, h_known⟩ := coldStartScan_known h_listed h_names
        rw [h_scan]
        exact ⟨h_listed, h_known⟩
      · -- a library that cannot be listed ends the source
        have h_end := coldStartScanWith_end (liveSteamAppids proc) now libraries {}
        rw [if_neg h_listed] at h_end
        cases h_scan : coldStartScan proc (.receiving now) libraries {} with
        | mk source ended =>
          obtain rfl : ended = .failed := by
            rw [← h_end]
            exact (congrArg Prod.snd h_scan).symm
          exact h_listed
    | locating =>
      -- from the end of the log, or from its beginning if it cannot be seen
      refine ⟨h.1, h.2, .starting ?_ r.source⟩
      cases accessible with
      | true => exact le_rfl
      | false => exact Nat.zero_le _
    | tailing =>
      obtain ⟨h_listed, h_known, h_reads⟩ := h
      cases accessible with
      | true =>
        have h_alive : ∀ sent, (⟨.receiving now, resolveName⟩ : DrainOutlet).alive sent = true :=
          fun _ => rfl
        have h_fed : Fed r.source (lines lf (taken r.content r.start))
            (r.drain ⟨.receiving now, resolveName⟩).source :=
          drainLines_fed h_alive r.content r.cursor r.source
        exact ⟨h_listed, h_known.fed h_fed (taken_fits _ _),
          h_reads.drain (h_undisturbed.2 rfl).1 h_alive⟩
      | false => exact ⟨h_listed, h_known, h_reads⟩
    | stopped => exact h

/-- **A source survives a moment** exactly if nothing is disturbed in it. -/
theorem Watching.Inv.undisturbed_iff {s : Watching} (h : s.Inv proc libraries) :
    s.Survives proc libraries ⟨.receiving now, resolveName⟩ ↔ s.Undisturbed libraries := by
  obtain ⟨r, stage⟩ := s
  have h_alive : ∀ sent, (Outlet.receiving now).alive sent = true := fun _ => rfl
  cases stage with
  | scanning =>
    have h_source : r.source = {} := h
    refine iff_of_true ⟨nofun, fun h_scanned => absurd rfl h_scanned, nofun, ?_⟩
      ⟨fun h_scanned => absurd rfl h_scanned, nofun⟩
    intro appid h_unmatched
    rw [show r.source.sent = [] by rw [h_source]] at h_unmatched
    exact nomatch h_unmatched
  | locating =>
    have h_known : Known proc libraries r.source := h.2
    refine iff_of_true ⟨nofun, fun _ appid h_found => started_iff.mpr (h_known.started appid h_found),
      nofun, ?_⟩ ⟨fun _ => h.1, nofun⟩
    intro appid h_unmatched
    -- the length of the log is read first
    refine ⟨follow (Watching.apply proc libraries ⟨.receiving now, resolveName⟩) ⟨r, .locating⟩
      (.advance true :: stopping appid), isRun_follow _ _ _, ?_⟩
    rw [final_follow]
    exact h_known.stop rfl ((h_known.tracks.unmatched appid).mp h_unmatched)
  | tailing =>
    obtain ⟨h_listed, h_known, h_reads⟩ := h
    have h_iff := h_reads.drains_all_iff
      (show ∀ sent, (⟨.receiving now, resolveName⟩ : DrainOutlet).alive sent = true from h_alive)
    refine ⟨fun h_survives => ⟨fun _ => h_listed, fun _ => h_iff.mp (h_survives.readsOn rfl)⟩, ?_⟩
    intro h_undisturbed
    refine ⟨nofun, fun _ appid h_found => started_iff.mpr (h_known.started appid h_found),
      fun _ => h_iff.mpr (h_undisturbed.2 rfl), ?_⟩
    intro appid h_unmatched
    refine ⟨follow (Watching.apply proc libraries ⟨.receiving now, resolveName⟩) ⟨r, .tailing⟩
      (stopping appid), isRun_follow _ _ _, ?_⟩
    rw [final_follow]
    exact h_known.stop rfl ((h_known.tracks.unmatched appid).mp h_unmatched)
  | stopped =>
    refine iff_of_false (fun h_survives => h_survives.runs rfl) fun h_undisturbed => ?_
    exact h (h_undisturbed.1 nofun)

/-- **The Steam source survives failures of the file system** in every state of a run if and only if
in every state no listing has failed on the way, and the log can be read on. File names are no longer
than the file system allows. -/
theorem survives_iff
    (h_names : ∀ entry ∈ delivered libraries, ∀ fileName ∈ entry.fileName, fileName.length ≤ 255)
    {log : List UInt8} {tr : List (Happening × Watching)}
    (hrun : IsRun (Watching.step proc libraries ⟨.receiving now, resolveName⟩) (.starting log) tr) :
    (∀ t ∈ states (.starting log) tr, t.Survives proc libraries ⟨.receiving now, resolveName⟩) ↔
      ∀ t ∈ states (.starting log) tr, t.Undisturbed libraries :=
  hrun.states_congr (Watching.Inv proc libraries) (fun _ h => h.undisturbed_iff)
    (fun _ _ _ h_step h_undisturbed h => h.step h_names h_step h_undisturbed) rfl

end Life

/-- A start-up with a library that cannot be opened, and a log that is missing at first, written,
unreadable for a while, and replaced. -/
def hardLife : List Happening :=
  [.advance true, .advance false, .advance false, .append startLine, .advance false, .advance true,
    .rotate, .advance true, .append (encode (stopLine "440")), .advance true]

/-- The source survives it, as nothing in it is disturbed. -/
theorem survives_iff_hardLife :
    ((∀ t ∈ states (.starting []) (follow
        (Watching.apply playing [none, some [some manifest440]] .steady) (.starting []) hardLife),
        t.Survives playing [none, some [some manifest440]] .steady) ↔
      ∀ t ∈ states (.starting []) (follow
        (Watching.apply playing [none, some [some manifest440]] .steady) (.starting []) hardLife),
        t.Undisturbed [none, some [some manifest440]]) ∧
      ∀ t ∈ states (.starting []) (follow
        (Watching.apply playing [none, some [some manifest440]] .steady) (.starting []) hardLife),
        t.Undisturbed [none, some [some manifest440]] :=
  ⟨survives_iff (by decide +kernel) (isRun_follow _ _ hardLife), by decide +kernel⟩

/-! ### A listing that fails on the way -/

/-- A source that has stopped does nothing any more. -/
theorem stopped_final {proc : ProcSnapshot} {libraries : List Library} {outlet : DrainOutlet}
    {s : Watching} {tr : List (Happening × Watching)}
    (hrun : IsRun (Watching.step proc libraries outlet) s tr) (h : s.stage = .stopped) :
    -- by induction on the run: no happening wakes a source that has stopped
    (final s tr).stage = .stopped ∧ (final s tr).source = s.source := by
  induction hrun with
  | nil s => exact ⟨h, rfl⟩
  | @cons s t happening tr h_step _ ih =>
    obtain ⟨r, stage⟩ := s
    obtain rfl : stage = .stopped := h
    obtain rfl := h_step
    cases happening with
    | append new => exact ih rfl
    | rotate => exact ih rfl
    | advance accessible => exact ih rfl

/-- A library whose listing fails behind the manifest of a running game. -/
def failingLibrary : Library := some [some manifest440, none]

/-- **A listing that fails on the way ends the source**: the game it has just started is never
stopped, whatever the log says. -/
theorem failingLibrary_stops :
    let s := (Watching.starting []).advance playing [failingLibrary] .steady true
    s.stage = .stopped ∧ Unmatched s.source.sent "440" ∧
      ∀ tr, IsRun (Watching.step playing [failingLibrary] .steady) s tr →
        (final s tr).stage = .stopped ∧ Unmatched (final s tr).source.sent "440" := by
  -- the scan meets the entry that fails, after it has announced a game
  have h_stage : ((Watching.starting []).advance playing [failingLibrary] .steady true).stage =
      .stopped := by decide +kernel
  have h_unmatched : Unmatched
      ((Watching.starting []).advance playing [failingLibrary] .steady true).source.sent "440" := by
    unfold Unmatched
    decide +kernel
  refine ⟨h_stage, h_unmatched, fun tr hrun => ?_⟩
  obtain ⟨h_stopped, h_source⟩ := stopped_final hrun h_stage
  rw [h_source]
  exact ⟨h_stopped, h_unmatched⟩

end Steam

end Ludex
