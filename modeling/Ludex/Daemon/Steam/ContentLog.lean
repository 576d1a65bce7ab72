import Ludex.Lib.Lines
import Ludex.Lib.Switches
import Ludex.Daemon.Steam.ColdStart

/-!
# Draining the content log

`drain_lines` of `steam.rs` reads what follows the cursor in Steam's content log, at most
`MAX_DRAIN_BYTES` of it, takes the complete lines, and turns the state changes they report into
events and updates of the set of running appids. The log is a list of bytes.

`feed` is what complete lines are for: each line is read once, in order, and is an event when it
changes the running set. A drain takes some complete lines behind the place it reads from, moves the
cursor behind them (`drainLines_cursor`), and feeds them (`drainLines_fed`).
-/

namespace Ludex

namespace Steam

open Lines Switches

/-! ### State changes -/

/-- Parse a state-change line:
`[YYYY-MM-DD HH:MM:SS] AppID <digits> state changed : <flag>,<flag>,...` -/
def parseStateChange (line : List Char) : Option (String × Bool) := do
  let (_, rest) ← Text.splitOnce "] AppID ".toList line
  let (appid, rest) ← Text.splitOnce " ".toList rest
  if !appid.all Text.isAsciiDigit || appid.isEmpty then none
  else
    let flags ← Text.stripPrefix "state changed : ".toList rest
    let appRunning := ((flags.rdropWhile fun c => c = '\n').splitOn ',').any fun flag =>
      Text.trimMatches Text.isWhiteSpace flag = "App Running".toList
    some (String.ofList appid, appRunning)

/-- A line of bytes that reports a state change. -/
def readLine (line : List UInt8) : Option (String × Bool) := (decode line).bind parseStateChange

example :
    parseStateChange
        "[2026-04-18 22:14:43] AppID 1621690 state changed : Fully Installed,App Running,\n".toList =
      some ("1621690", true) := by
  decide +kernel

/-! ### Draining -/

/-- What a drain finds around it: the receiver, the clock, and the names in the manifests. -/
structure DrainOutlet extends Outlet where
  resolveName : List GameEvent → String → String

/-- Handle the lines one by one. A receiver that is gone ends the loop. -/
def applyLines (outlet : DrainOutlet) : List (List Char) → SourceState → SourceState
  | [], s => s
  | line :: rest, s =>
    match parseStateChange line with
    | none => applyLines outlet rest s
    | some (appid, isRunning) =>
      let wasRunning := decide (appid ∈ s.running)
      if isRunning && !wasRunning then
        let running := insert appid s.running
        if outlet.alive s.sent then
          applyLines outlet rest
            ⟨running, s.sent ++ [.started (GameKey.steam appid) (outlet.resolveName s.sent appid)
              none (outlet.now s.sent)]⟩
        else ⟨running, s.sent⟩
      else if !isRunning && wasRunning then
        let running := s.running.erase appid
        if outlet.alive s.sent then
          applyLines outlet rest
            ⟨running, s.sent ++ [.stopped (GameKey.steam appid) (outlet.now s.sent)]⟩
        else ⟨running, s.sent⟩
      else applyLines outlet rest s

def maxDrainBytes : ℕ := 4 * 1024 * 1024

/-- The complete lines at the start of what one pass reads. -/
def chunk (content : List UInt8) (cursor : ℕ) : List UInt8 :=
  terminated lf ((content.drop cursor).take (min (content.length - cursor) maxDrainBytes))

/-- Read the complete lines after the cursor, and return the new cursor. A log that is shorter than
the cursor has been replaced, and is read from its start. -/
def drainLines (outlet : DrainOutlet) (content : List UInt8) (cursor : ℕ) (s : SourceState) :
    ℕ × SourceState :=
  let cursor := if content.length < cursor then 0 else cursor
  if content.length = cursor then (cursor, s)
  else
    let consumed := chunk content cursor
    if consumed.length = 0 then (cursor, s)
    else
      match decode consumed with
      -- wait for the rest of a character that has not been flushed
      | none => (cursor, s)
      | some text => (cursor + consumed.length, applyLines outlet (splitInclusive '\n' text) s)

/-- A drain whose errors keep the cursor. -/
def drainOrKeep (outlet : DrainOutlet) (content : Option (List UInt8)) (cursor : ℕ)
    (s : SourceState) : ℕ × SourceState :=
  match content with
  | some content => drainLines outlet content cursor s
  | none => (cursor, s)

/-! ### Feeding lines -/

/-- The key of an event, and whether the game is up after it. -/
def mark : GameEvent → GameKey × Bool
  | .started key _ _ _ => (key, true)
  | .stopped key _ => (key, false)

/-- Feed lines: the running set they leave, and the marks of the events they are. A line that
reports what is known already is no event. -/
def feed (running : Finset String) : List (List UInt8) → Finset String × List (GameKey × Bool)
  | [] => (running, [])
  | line :: rest =>
    match readLine line with
    | none => feed running rest
    | some (appid, up) =>
      if decide (appid ∈ running) = up then feed running rest
      else
        let (after, marks) := feed (put running (appid, up)) rest
        (after, (GameKey.steam appid, up) :: marks)

theorem feed_append (running : Finset String) (xs ys : List (List UInt8)) :
    feed running (xs ++ ys) =
      ((feed (feed running xs).1 ys).1,
        (feed running xs).2 ++ (feed (feed running xs).1 ys).2) := by
  -- induction on the lines: each is fed to what those before it made of the state
  induction xs generalizing running with
  | nil => rfl
  | cons line xs ih =>
    rw [List.cons_append, feed, feed]
    cases readLine line with
    | none => exact ih running
    | some x =>
      obtain ⟨appid, up⟩ := x
      -- a line that says what is known already sends no event
      by_cases h_same : decide (appid ∈ running) = up
      · simp only [h_same, if_true]
        exact ih running
      · simp only [h_same, if_false, ih (put running (appid, up))]
        rfl

/-- What lines state about a game, in order. -/
def stated (appid : String) (fed : List (List UInt8)) : List Bool := about appid (fed.filterMap readLine)

theorem stated_append (appid : String) (xs ys : List (List UInt8)) :
    stated appid (xs ++ ys) = stated appid xs ++ stated appid ys := by
  unfold stated
  rw [List.filterMap_append, about_append]

/-- **The running set is what the lines switch it to**, events or not. -/
theorem feed_running (running : Finset String) (fed : List (List UInt8)) :
    (feed running fed).1 = (fed.filterMap readLine).foldl put running := by
  induction fed generalizing running with
  | nil => rfl
  | cons line fed ih =>
    rw [feed]
    cases h_line : readLine line with
    | none =>
      rw [List.filterMap_cons_none h_line]
      exact ih running
    | some x =>
      obtain ⟨appid, up⟩ := x
      rw [List.filterMap_cons_some h_line, List.foldl_cons]
      by_cases h_same : decide (appid ∈ running) = up
      · -- what is known already changes nothing
        simp only [h_same, if_true, put_eq_self h_same]
        exact ih running
      · simp only [h_same, if_false]
        exact ih _

/-- The state after lines have been fed. -/
structure Fed (s : SourceState) (fed : List (List UInt8)) (s' : SourceState) : Prop where
  running : s'.running = (feed s.running fed).1
  marks : s'.sent.map mark = s.sent.map mark ++ (feed s.running fed).2

theorem Fed.nil (s : SourceState) : Fed s [] s := ⟨rfl, (List.append_nil _).symm⟩

theorem Fed.trans {s s' s'' : SourceState} {xs ys : List (List UInt8)} (h : Fed s xs s')
    (h' : Fed s' ys s'') : Fed s (xs ++ ys) s'' where
  running := by rw [feed_append, h'.running, h.running]
  marks := by rw [feed_append, h'.marks, h.marks, h.running, List.append_assoc]

/-- A line that is no event. -/
theorem Fed.silent {s s' : SourceState} {line : List UInt8} {rest : List (List UInt8)}
    (h : Fed s rest s')
    (h_line : ∀ appid up, readLine line = some (appid, up) → decide (appid ∈ s.running) = up) :
    Fed s (line :: rest) s' := by
  have h_feed : feed s.running (line :: rest) = feed s.running rest := by
    rw [feed]
    cases h_read : readLine line with
    | none => rfl
    | some x =>
      obtain ⟨appid, up⟩ := x
      simp only [h_line appid up h_read, if_true]
  exact ⟨by rw [h_feed, h.running], by rw [h_feed, h.marks]⟩

/-- A line that is an event. -/
theorem Fed.event {s s' : SourceState} {line : List UInt8} {rest : List (List UInt8)}
    {event : GameEvent} {appid : String} {up : Bool} (h_read : readLine line = some (appid, up))
    (h_new : decide (appid ∈ s.running) ≠ up) (h_mark : mark event = (GameKey.steam appid, up))
    (h : Fed ⟨put s.running (appid, up), s.sent ++ [event]⟩ rest s') :
    Fed s (line :: rest) s' := by
  have h_feed : feed s.running (line :: rest) =
      ((feed (put s.running (appid, up)) rest).1,
        (GameKey.steam appid, up) :: (feed (put s.running (appid, up)) rest).2) := by
    rw [feed, h_read]
    simp only [h_new, if_false]
  refine ⟨by rw [h_feed, h.running], ?_⟩
  rw [h_feed, h.marks]
  simp only [List.map_append, List.map_cons, List.map_nil, h_mark, List.append_assoc,
    List.singleton_append]

/-- **The loop over the lines feeds them**, while the receiver is there. -/
theorem applyLines_fed {outlet : DrainOutlet} (h_alive : ∀ sent, outlet.alive sent = true)
    (texts : List (List Char)) (s : SourceState) :
    Fed s (texts.map encode) (applyLines outlet texts s) := by
  induction texts generalizing s with
  | nil => exact .nil s
  | cons text texts ih =>
    have h_read : readLine (encode text) = parseStateChange text := by
      unfold readLine
      rw [decode_encode]
      rfl
    rw [List.map_cons, applyLines]
    cases h_parse : parseStateChange text with
    | none =>
      refine (ih s).silent fun appid up h_some => ?_
      rw [h_read, h_parse] at h_some
      exact nomatch h_some
    | some x =>
      obtain ⟨appid, up⟩ := x
      rw [h_parse] at h_read
      have h_silent : decide (appid ∈ s.running) = up →
          Fed s (encode text :: texts.map encode) (applyLines outlet texts s) := by
        intro h_same
        refine (ih s).silent fun appid' up' h_some => ?_
        obtain ⟨rfl, rfl⟩ := Prod.mk.inj (Option.some.inj (h_read.symm.trans h_some))
        exact h_same
      -- the line is an event exactly if it changes the running set
      cases up with
      | true =>
        by_cases h_mem : appid ∈ s.running
        · simp only [h_mem, decide_true, Bool.not_true, Bool.and_false, Bool.false_and,
            Bool.false_eq_true, if_false]
          exact h_silent (decide_eq_true h_mem)
        · simp only [h_mem, decide_false, Bool.not_false, Bool.and_true, if_true, h_alive]
          exact .event h_read (by simp [h_mem]) rfl (ih _)
      | false =>
        by_cases h_mem : appid ∈ s.running
        · simp only [h_mem, decide_true, Bool.not_false, Bool.and_true, Bool.false_and,
            Bool.false_eq_true, if_false, if_true, h_alive]
          exact .event h_read (by simp [h_mem]) rfl (ih _)
        · simp only [h_mem, decide_false, Bool.not_false, Bool.and_false, Bool.false_and,
            Bool.false_eq_true, if_false]
          exact h_silent (decide_eq_false h_mem)

/-! ### One drain -/

/-- The cursor is at the start of a line. -/
structure AtLine (content : List UInt8) (cursor : ℕ) : Prop where
  le : cursor ≤ content.length
  terminated : Terminated lf (content.take cursor)

theorem AtLine.zero (content : List UInt8) : AtLine content 0 :=
  ⟨Nat.zero_le _, Or.inl List.take_zero⟩

/-- Behind complete lines is the start of a line. -/
theorem AtLine.advance {content new rest : List UInt8} {cursor : ℕ} (h : AtLine content cursor)
    (h_drop : content.drop cursor = new ++ rest) (h_new : Terminated lf new) :
    AtLine content (cursor + new.length) ∧ content.drop (cursor + new.length) = rest ∧
      content.take (cursor + new.length) = content.take cursor ++ new := by
  -- nothing before the cursor is read again
  have h_take : content.take (cursor + new.length) = content.take cursor ++ new := by
    rw [List.take_add, h_drop, List.take_left']
    rfl
  -- and nothing behind the part is touched
  have h_rest : content.drop (cursor + new.length) = rest := by
    rw [← List.drop_drop, h_drop, List.drop_left']
    rfl
  have h_len := congrArg List.length h_drop
  rw [List.length_drop, List.length_append] at h_len
  refine ⟨⟨?_, ?_⟩, h_rest, h_take⟩
  · have h_le := h.le
    omega
  · rw [h_take]
    exact h.terminated.append h_new

theorem chunk_terminated (content : List UInt8) (cursor : ℕ) : Terminated lf (chunk content cursor) :=
  terminated_isTerminated lf _

theorem chunk_isPrefix (content : List UInt8) (cursor : ℕ) : chunk content cursor <+: content.drop cursor :=
  (terminated_isPrefix lf _).trans (List.take_prefix _ _)

/-- Where a drain reads from. -/
def start (content : List UInt8) (cursor : ℕ) : ℕ := if content.length < cursor then 0 else cursor

/-- What a drain takes: the lines of the chunk, if they are text. -/
def taken (content : List UInt8) (start : ℕ) : List UInt8 :=
  if (decode (chunk content start)).isSome then chunk content start else []

theorem AtLine.start_eq {content : List UInt8} {cursor : ℕ} (h : AtLine content cursor) :
    start content cursor = cursor := if_neg (not_lt.mpr h.le)

theorem taken_terminated (content : List UInt8) (start : ℕ) : Terminated lf (taken content start) := by
  unfold taken
  split
  · exact chunk_terminated content start
  · exact Or.inl rfl

theorem taken_isPrefix (content : List UInt8) (start : ℕ) : taken content start <+: content.drop start := by
  unfold taken
  split
  · exact chunk_isPrefix content start
  · exact List.nil_prefix

theorem taken_length_le (content : List UInt8) (start : ℕ) :
    (taken content start).length ≤ maxDrainBytes := by
  have h_chunk : (chunk content start).length ≤ maxDrainBytes := by
    refine (terminated_isPrefix lf _).length_le.trans ?_
    rw [List.length_take]
    omega
  unfold taken
  split
  · exact h_chunk
  · exact Nat.zero_le _

theorem taken_decodes (content : List UInt8) (start : ℕ) : (decode (taken content start)).isSome = true := by
  unfold taken
  split
  · assumption
  · rw [show decode [] = some [] from decode_encode []]
    rfl

/-- What a drain does, without its early returns. -/
theorem drainLines_eq (outlet : DrainOutlet) (content : List UInt8) (cursor : ℕ) (s : SourceState) :
    drainLines outlet content cursor s =
      match decode (chunk content (start content cursor)) with
      | none => (start content cursor, s)
      | some text =>
        (start content cursor + (chunk content (start content cursor)).length,
          applyLines outlet (splitInclusive '\n' text) s) := by
  unfold drainLines start
  simp only []
  generalize (if content.length < cursor then 0 else cursor) = start
  -- with nothing to read the chunk is empty, and no line is applied
  have h_empty : chunk content start = [] →
      (match decode (chunk content start) with
        | none => (start, s)
        | some text =>
          (start + (chunk content start).length, applyLines outlet (splitInclusive '\n' text) s)) =
        (start, s) := by
    intro h_nil
    rw [h_nil, show decode [] = some [] from decode_encode []]
    rfl
  by_cases h_end : content.length = start
  · have h_nil : chunk content start = [] := by
      unfold chunk
      rw [← h_end, List.drop_length, List.take_nil]
      rfl
    rw [if_pos h_end, h_empty h_nil]
  rw [if_neg h_end]
  by_cases h_nil : (chunk content start).length = 0
  · rw [h_empty (List.length_eq_zero_iff.mp h_nil)]
    exact if_pos h_nil
  · exact if_neg h_nil

theorem drainLines_cursor (outlet : DrainOutlet) (content : List UInt8) (cursor : ℕ)
    (s : SourceState) :
    (drainLines outlet content cursor s).1 =
      start content cursor + (taken content (start content cursor)).length := by
  rw [drainLines_eq]
  unfold taken
  cases decode (chunk content (start content cursor)) with
  | none => rfl
  | some text => rfl

/-- **A drain feeds what it takes**, while the receiver is there. -/
theorem drainLines_fed {outlet : DrainOutlet} (h_alive : ∀ sent, outlet.alive sent = true)
    (content : List UInt8) (cursor : ℕ) (s : SourceState) :
    Fed s (lines lf (taken content (start content cursor)))
      (drainLines outlet content cursor s).2 := by
  rw [drainLines_eq]
  unfold taken
  -- a chunk that is no text is not read, and nothing is fed
  cases h_decode : decode (chunk content (start content cursor)) with
  | none => exact .nil s
  | some text =>
    -- the lines of the text are the lines of the bytes
    have h_lines : lines lf (chunk content (start content cursor)) =
        (splitInclusive '\n' text).map encode := by
      rw [(chunk_terminated _ _).lines_eq, ← splitInclusive_encode, decode_eq_some.mp h_decode]
    show Fed s (lines lf (chunk content (start content cursor))) (applyLines outlet _ s)
    rw [h_lines]
    exact applyLines_fed h_alive _ s

end Steam

end Ludex
