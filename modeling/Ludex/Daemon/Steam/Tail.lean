import Ludex.Daemon.Steam.ContentLog

/-!
# Tailing the content log

The source wakes up and drains the log, again and again, while Steam appends to it (`Tailing`,
`Wake`). Whatever the file looks like at the wake-ups, the cursor stays at the start of a line, never
goes back, and the events are those of the lines it has passed (`Follows`); between the events of one
game the game goes up and down in turn (`feed_history`).

A drain can also leave the cursor where it is. It moves as long as every unread line fits into one
read and is text (`Readable`), and only then: a line that is not stays unread for ever, and so does
all that follows it.
-/

namespace Ludex

namespace Steam

open Lines Switches

/-! ### One game's events -/

/-- The game's state, first as it was, then after each of its events. -/
def history (up : Bool) (marks : List (GameKey × Bool)) (key : GameKey) : List Bool :=
  up :: about key marks

theorem history_cons_self (up up' : Bool) (marks : List (GameKey × Bool)) (key : GameKey) :
    history up ((key, up') :: marks) key = up :: history up' marks key := by
  unfold history
  rw [about_cons_self]

theorem history_cons_of_ne {key key' : GameKey} (h : key' ≠ key) (up up' : Bool)
    (marks : List (GameKey × Bool)) : history up ((key', up') :: marks) key = history up marks key := by
  unfold history
  rw [about_cons_of_ne h]

/-- **Fed lines alternate**: one game's events are up and down in turn, and the game is in the
running set exactly if the last one is up. -/
theorem feed_history (running : Finset String) (fed : List (List UInt8)) (appid : String) :
    (history (decide (appid ∈ running)) (feed running fed).2 (GameKey.steam appid)).IsChain (· ≠ ·) ∧
      (history (decide (appid ∈ running)) (feed running fed).2 (GameKey.steam appid)).getLast? =
        some (decide (appid ∈ (feed running fed).1)) := by
  induction fed generalizing running with
  | nil => exact ⟨List.IsChain.singleton _, rfl⟩
  | cons line fed ih =>
    rw [feed]
    cases readLine line with
    | none => exact ih running
    | some x =>
      obtain ⟨appid', up⟩ := x
      by_cases h_same : decide (appid' ∈ running) = up
      · simp only [h_same, if_true]
        exact ih running
      simp only [h_same, if_false]
      have h_ih := ih (put running (appid', up))
      by_cases h_appid : appid' = appid
      · -- the event is one of this game
        subst h_appid
        rw [decide_mem_put, if_pos rfl] at h_ih
        rw [history_cons_self]
        refine ⟨List.isChain_cons_cons.mpr ⟨h_same, h_ih.1⟩, ?_⟩
        rw [← h_ih.2]
        exact List.getLast?_cons_cons
      · -- another game's event changes nothing for this one
        have h_key : GameKey.steam appid' ≠ GameKey.steam appid := by
          intro h_eq
          injection h_eq with _ h_id
          exact h_appid h_id
        rw [decide_mem_put, if_neg h_appid] at h_ih
        rw [history_cons_of_ne h_key]
        exact h_ih

/-- The marks of the events sent since an earlier state. -/
def emitted (s s' : SourceState) : List (GameKey × Bool) := (s'.sent.drop s.sent.length).map mark

theorem Fed.emitted {s s' : SourceState} {fed : List (List UInt8)} (h : Fed s fed s') :
    emitted s s' = (feed s.running fed).2 := by
  unfold Steam.emitted
  rw [List.map_drop, h.marks, List.drop_left' (List.length_map _)]

/-! ### Line boundaries -/

theorem AtLine.append {content : List UInt8} {cursor : ℕ} (h : AtLine content cursor)
    (new : List UInt8) : AtLine (content ++ new) cursor where
  le := h.le.trans (List.prefix_append content new).length_le
  terminated := by
    rw [List.take_append_of_le_length h.le]
    exact h.terminated

/-- Between two starts of lines there are complete lines. -/
theorem AtLine.between {content : List UInt8} {cursor cursor' : ℕ} (h : AtLine content cursor)
    (h' : AtLine content cursor') (h_le : cursor ≤ cursor') :
    Terminated lf ((content.take cursor').drop cursor) := by
  have h_front : (content.take cursor').take cursor = content.take cursor := by
    rw [List.take_take, min_eq_left h_le]
  have h_whole : Terminated lf (content.take cursor ++ (content.take cursor').drop cursor) := by
    rw [← h_front, List.take_append_drop]
    exact h'.terminated
  exact h_whole.of_append h.terminated

theorem AtLine.lines_ne_nil {content : List UInt8} {cursor cursor' : ℕ} (h : AtLine content cursor)
    (h' : AtLine content cursor') (h_lt : cursor < cursor') :
    lines lf ((content.take cursor').drop cursor) ≠ [] := by
  intro h_nil
  have h_flat := flatten_lines lf ((content.take cursor').drop cursor)
  rw [h_nil, (h.between h' h_lt.le).eq] at h_flat
  have h_len := congrArg List.length h_flat
  rw [List.length_drop, List.length_take_of_le h'.le, List.flatten_nil, List.length_nil] at h_len
  omega

/-- What is behind the first of two starts of lines is what is between them and what is behind the
second. -/
theorem drop_eq_between (content : List UInt8) {cursor cursor' : ℕ} (h_le : cursor ≤ cursor') :
    content.drop cursor = (content.take cursor').drop cursor ++ content.drop cursor' := by
  rw [List.drop_take]
  conv_lhs => rw [← List.take_append_drop (cursor' - cursor) (content.drop cursor)]
  rw [List.drop_drop, Nat.add_sub_cancel' h_le]

/-- The end of the complete lines is the start of a line. -/
theorem AtLine.end (content : List UInt8) : AtLine content (Lines.terminated lf content).length where
  le := (terminated_isPrefix lf content).length_le
  terminated := by
    rw [← List.prefix_iff_eq_take.mp (terminated_isPrefix lf content)]
    exact terminated_isTerminated lf content

/-! ### Wake-ups -/

/-- The log, and the source that follows it. -/
structure Tailing where
  content : List UInt8
  cursor : ℕ
  source : SourceState

/-- A wake-up: what Steam has appended since the last one, and what the drain finds around it. -/
structure Wake extends DrainOutlet where
  appended : List UInt8

/-- Drain the log. -/
def Tailing.wake (t : Tailing) (w : Wake) : Tailing where
  content := t.content ++ w.appended
  cursor := (drainLines w.toDrainOutlet (t.content ++ w.appended) t.cursor t.source).1
  source := (drainLines w.toDrainOutlet (t.content ++ w.appended) t.cursor t.source).2

def Tailing.run (t : Tailing) (wakes : List Wake) : Tailing := wakes.foldl Tailing.wake t

theorem Tailing.run_append (t : Tailing) (before after : List Wake) :
    t.run (before ++ after) = (t.run before).run after := List.foldl_append

theorem AtLine.wake_cursor {t : Tailing} (w : Wake) (h : AtLine t.content t.cursor) :
    (t.wake w).cursor = t.cursor + (taken (t.content ++ w.appended) t.cursor).length := by
  show (drainLines w.toDrainOutlet (t.content ++ w.appended) t.cursor t.source).1 = _
  rw [drainLines_cursor, (h.append w.appended).start_eq]

/-- **One wake-up**: the cursor moves behind the lines that are taken. -/
theorem AtLine.wake {t : Tailing} (w : Wake) (h : AtLine t.content t.cursor) :
    AtLine (t.wake w).content (t.wake w).cursor ∧
      ((t.wake w).content.take (t.wake w).cursor).drop t.cursor =
        taken (t.content ++ w.appended) t.cursor := by
  obtain ⟨rest, h_drop⟩ := taken_isPrefix (t.content ++ w.appended) t.cursor
  obtain ⟨h_line, _, h_take⟩ :=
    (h.append w.appended).advance h_drop.symm (taken_terminated _ _)
  rw [h.wake_cursor w]
  show AtLine (t.content ++ w.appended) _ ∧ ((t.content ++ w.appended).take _).drop t.cursor = _
  refine ⟨h_line, ?_⟩
  rw [h_take, List.drop_left']
  exact List.length_take_of_le (h.append w.appended).le

/-- The later state has read on from the earlier one: the lines between the two cursors have been
fed, once each and in order. -/
structure Follows (t t' : Tailing) : Prop where
  content : t.content <+: t'.content
  atLine : AtLine t'.content t'.cursor
  le : t.cursor ≤ t'.cursor
  fed : Fed t.source (lines lf ((t'.content.take t'.cursor).drop t.cursor)) t'.source

theorem AtLine.follows {t : Tailing} (h : AtLine t.content t.cursor) : Follows t t where
  content := List.prefix_rfl
  atLine := h
  le := le_rfl
  fed := by
    rw [List.drop_eq_nil_of_le (List.length_take_le _ _)]
    exact .nil _

theorem Follows.trans {t t' t'' : Tailing} (h_line : AtLine t.content t.cursor) (h : Follows t t')
    (h' : Follows t' t'') : Follows t t'' where
  content := h.content.trans h'.content
  atLine := h'.atLine
  le := h.le.trans h'.le
  fed := by
    obtain ⟨new, h_new⟩ := h'.content
    -- the lines up to the first cursor are still there
    have h_take : (t''.content.take t''.cursor).take t'.cursor = t'.content.take t'.cursor := by
      rw [List.take_take, min_eq_left h'.le, ← h_new, List.take_append_of_le_length h.atLine.le]
    have h_split : (t''.content.take t''.cursor).drop t.cursor =
        (t'.content.take t'.cursor).drop t.cursor ++
          (t''.content.take t''.cursor).drop t'.cursor := by
      rw [drop_eq_between _ h.le, h_take]
    have h_line' : AtLine t'.content t.cursor := by
      obtain ⟨old, h_old⟩ := h.content
      rw [← h_old]
      exact h_line.append old
    rw [h_split, lines_append (h_line'.between h.atLine h.le)]
    exact h.fed.trans h'.fed

/-- What is appended is behind what has been read. -/
theorem Follows.append {t t' : Tailing} (h : Follows t t') (new : List UInt8) :
    Follows t ⟨t'.content ++ new, t'.cursor, t'.source⟩ where
  content := h.content.trans (List.prefix_append _ _)
  atLine := h.atLine.append new
  le := h.le
  fed := by
    show Fed t.source (lines lf (((t'.content ++ new).take t'.cursor).drop t.cursor)) t'.source
    rw [List.take_append_of_le_length h.atLine.le]
    exact h.fed

theorem AtLine.wake_follows {t : Tailing} {w : Wake} (h_alive : ∀ sent, w.alive sent = true)
    (h : AtLine t.content t.cursor) : Follows t (t.wake w) where
  content := List.prefix_append _ _
  atLine := (h.wake w).1
  le := by
    rw [h.wake_cursor w]
    exact Nat.le_add_right _ _
  fed := by
    rw [(h.wake w).2]
    have h_fed : Fed t.source
        (lines lf (taken (t.content ++ w.appended) (start (t.content ++ w.appended) t.cursor)))
        (t.wake w).source := drainLines_fed h_alive (t.content ++ w.appended) t.cursor t.source
    rwa [(h.append w.appended).start_eq] at h_fed

/-- **Wake-ups read on**, whatever is appended between them. -/
theorem AtLine.run_follows {t : Tailing} {wakes : List Wake}
    (h_alive : ∀ w ∈ wakes, ∀ sent, w.alive sent = true) (h : AtLine t.content t.cursor) :
    Follows t (t.run wakes) := by
  induction wakes generalizing t with
  | nil => exact h.follows
  | cons w wakes ih =>
    rw [List.forall_mem_cons] at h_alive
    have h_wake := h.wake_follows h_alive.1
    exact h_wake.trans h (ih h_alive.2 h_wake.atLine)

/-! ### Progress -/

/-- Every complete line behind the cursor fits into one read, and is text. -/
def Readable (content : List UInt8) (cursor : ℕ) : Prop :=
  ∀ line ∈ lines lf (content.drop cursor), line.length ≤ maxDrainBytes ∧ (decode line).isSome = true

/-- The lines behind the cursor are those that are taken and those that are left. -/
theorem lines_taken {content : List UInt8} {cursor : ℕ} (h : AtLine content cursor) :
    lines lf (content.drop cursor) =
      lines lf (taken content cursor) ++
        lines lf (content.drop (cursor + (taken content cursor).length)) := by
  obtain ⟨rest, h_drop⟩ := taken_isPrefix content cursor
  rw [(h.advance h_drop.symm (taken_terminated _ _)).2.1, ← h_drop]
  exact lines_append (taken_terminated _ _) rest

/-- **A drain takes something** when a complete line is left, and all that are left can be read. -/
theorem Readable.taken_ne_nil {content : List UInt8} {cursor : ℕ} (h : Readable content cursor)
    (h_mem : lf ∈ content.drop cursor) : taken content cursor ≠ [] := by
  obtain ⟨body, rest, h_body, h_drop⟩ := exists_line h_mem
  -- the first line fits, so the chunk is not empty
  have h_fits : (body ++ [lf]).length ≤ maxDrainBytes := by
    refine (h (body ++ [lf]) ?_).1
    rw [h_drop, lines_line h_body]
    exact List.mem_cons_self
  have h_chunk : chunk content cursor ≠ [] := by
    unfold chunk
    refine terminated_ne_nil ?_
    have h_len : (body ++ [lf]).length ≤ min (content.length - cursor) maxDrainBytes := by
      refine le_min ?_ h_fits
      rw [← List.length_drop, h_drop, List.append_cons body lf rest]
      exact (List.prefix_append _ _).length_le
    rw [h_drop, List.append_cons, List.take_append]
    refine List.mem_append_left _ ?_
    rw [List.take_of_length_le h_len]
    exact List.mem_append_right _ (List.mem_singleton_self lf)
  -- its lines are lines behind the cursor, and decode
  have h_text : (decode (chunk content cursor)).isSome = true := by
    refine (decode_isSome_iff (chunk_terminated _ _)).mpr fun line h_line => (h line ?_).2
    obtain ⟨tail, h_tail⟩ := chunk_isPrefix content cursor
    rw [← h_tail, lines_append (chunk_terminated _ _), (chunk_terminated _ _).lines_eq]
    exact List.mem_append_left _ h_line
  rw [taken, if_pos h_text]
  exact h_chunk

/-- What a drain finds fits into one read, and is text. -/
def Fits (content : List UInt8) (start : ℕ) : Prop :=
  (terminated lf (content.drop start)).length ≤ maxDrainBytes ∧
    (decode (terminated lf (content.drop start))).isSome = true

/-- **A drain takes every complete line** exactly when they fit. -/
theorem taken_eq_iff {content : List UInt8} {start : ℕ} :
    taken content start = terminated lf (content.drop start) ↔ Fits content start := by
  refine ⟨?_, ?_⟩
  · intro h
    exact ⟨h ▸ taken_length_le content start, h ▸ taken_decodes content start⟩
  · rintro ⟨h_len, h_text⟩
    have h_chunk : chunk content start = terminated lf (content.drop start) := by
      refine terminated_take (le_min ?_ h_len)
      rw [← List.length_drop]
      exact (terminated_isPrefix lf _).length_le
    rw [taken, h_chunk, if_pos h_text]

/-- **A drain takes every complete line** when what is left fits into one read. -/
theorem Readable.taken_eq {content : List UInt8} {cursor : ℕ} (h : Readable content cursor)
    (h_len : content.length - cursor ≤ maxDrainBytes) :
    taken content cursor = terminated lf (content.drop cursor) := by
  refine taken_eq_iff.mpr ⟨?_, ?_⟩
  · refine (terminated_isPrefix lf _).length_le.trans ?_
    rwa [List.length_drop]
  · rw [decode_isSome_iff (terminated_isTerminated _ _)]
    exact fun line h_line => (h line h_line).2

/-- The lines behind a start of a line are lines of the log. -/
theorem AtLine.readable {content : List UInt8} {cursor : ℕ} (h_line : AtLine content cursor)
    (h_text : ∀ position, AtLine content position → (decode (content.take position)).isSome = true)
    (h_short : ∀ line ∈ lines lf content, line.length ≤ maxDrainBytes) : Readable content cursor := by
  intro line h_mem
  have h_log : line ∈ lines lf content := by
    rw [← List.take_append_drop cursor content, lines_append h_line.terminated]
    exact List.mem_append_right _ h_mem
  have h_all := h_text _ (AtLine.end content)
  rw [← List.prefix_iff_eq_take.mp (terminated_isPrefix lf content),
    decode_isSome_iff (terminated_isTerminated _ _)] at h_all
  exact ⟨h_short line h_log, h_all line h_log⟩

/-- With nothing left behind the cursor, every complete line has been fed. -/
theorem Follows.emitted_all {t t' : Tailing} (h_line : AtLine t.content t.cursor) (h : Follows t t')
    (h_none : lines lf (t'.content.drop t'.cursor) = []) :
    emitted t.source t'.source =
      (feed t.source.running (lines lf (t'.content.drop t.cursor))).2 := by
  have h_old : AtLine t'.content t.cursor := by
    obtain ⟨new, h_new⟩ := h.content
    rw [← h_new]
    exact h_line.append new
  rw [h.fed.emitted, drop_eq_between t'.content h.le, lines_append (h_old.between h.atLine h.le),
    h_none, List.append_nil]

/-- A wake-up at which nothing has been appended. -/
def Wake.Idle (w : Wake) : Prop := w.appended = []

/-- **One idle wake-up** leaves fewer lines, all readable, or there were none. -/
theorem Readable.wake {t : Tailing} {w : Wake} (h_idle : w.Idle) (h_line : AtLine t.content t.cursor)
    (h : Readable t.content t.cursor) :
    (t.wake w).content = t.content ∧ Readable (t.wake w).content (t.wake w).cursor ∧
      (lines lf ((t.wake w).content.drop (t.wake w).cursor)).length ≤
        (lines lf (t.content.drop t.cursor)).length - 1 := by
  -- nothing is appended while the source is idle
  have h_content : t.content ++ w.appended = t.content := by
    rw [show w.appended = [] from h_idle, List.append_nil]
  have h_cursor := h_line.wake_cursor w
  rw [h_content] at h_cursor
  rw [show (t.wake w).content = t.content from h_content, h_cursor]
  -- the lines still to be read are what was there, less those that were taken
  refine ⟨rfl, ?_, ?_⟩
  · intro line h_mem
    refine h line ?_
    rw [lines_taken h_line]
    exact List.mem_append_right _ h_mem
  · rw [lines_taken h_line, List.length_append]
    -- a terminated line is left, so the wake takes at least one
    by_cases h_mem : lf ∈ t.content.drop t.cursor
    · have h_pos : lines lf (taken t.content t.cursor) ≠ [] := by
        intro h_nil
        have h_flat := flatten_lines lf (taken t.content t.cursor)
        rw [h_nil, (taken_terminated _ _).eq] at h_flat
        exact h.taken_ne_nil h_mem h_flat.symm
      have := List.length_pos_iff.mpr h_pos
      omega
    · have h_none := lines_of_notMem h_mem
      rw [lines_taken h_line] at h_none
      rw [(List.append_eq_nil_iff.mp h_none).2]
      simp

/-- **Idle wake-ups**, as many as lines are left, leave none. -/
theorem Readable.run {t : Tailing} {wakes : List Wake} (h_idle : ∀ w ∈ wakes, w.Idle)
    (h_line : AtLine t.content t.cursor) (h : Readable t.content t.cursor)
    (h_len : (lines lf (t.content.drop t.cursor)).length ≤ wakes.length) :
    (t.run wakes).content = t.content ∧ AtLine t.content (t.run wakes).cursor ∧
      lines lf (t.content.drop (t.run wakes).cursor) = [] := by
  -- induction on the wakes; each takes a line as long as there is one
  induction wakes generalizing t with
  | nil => exact ⟨rfl, h_line, List.length_eq_zero_iff.mp (Nat.le_zero.mp h_len)⟩
  | cons w wakes ih =>
    rw [List.forall_mem_cons] at h_idle
    obtain ⟨h_content, h_readable, h_fewer⟩ := h.wake h_idle.1 h_line
    rw [List.length_cons] at h_len
    obtain ⟨h_content', h_line', h_none⟩ :=
      ih h_idle.2 (h_line.wake w).1 h_readable (by omega)
    show ((t.wake w).run wakes).content = _ ∧ AtLine _ ((t.wake w).run wakes).cursor ∧
      lines lf (t.content.drop ((t.wake w).run wakes).cursor) = []
    rw [h_content] at h_content' h_line' h_none
    exact ⟨h_content', h_line', h_none⟩

/-- **Tailing feeds every complete line once, in order**, whatever the wake-ups see of the file. All
of them have been fed after a wake-up that finds no more than one read of bytes, and after as many
idle ones as lines are left. -/
theorem tail_exactly_once (t : Tailing) (wakes : List Wake)
    (h_alive : ∀ w ∈ wakes, ∀ sent, w.alive sent = true) (h_line : AtLine t.content t.cursor)
    (h_text : ∀ position, AtLine (t.run wakes).content position →
      (decode ((t.run wakes).content.take position)).isSome = true)
    (h_short : ∀ line ∈ lines lf (t.run wakes).content, line.length ≤ maxDrainBytes) :
    (∀ before after, wakes = before ++ after →
      AtLine (t.run before).content (t.run before).cursor ∧
      t.cursor ≤ (t.run before).cursor ∧ (t.run before).cursor ≤ (t.run wakes).cursor ∧
      emitted t.source (t.run before).source =
        (feed t.source.running
          (lines lf (((t.run before).content.take (t.run before).cursor).drop t.cursor))).2 ∧
      ∀ appid,
        (history (decide (appid ∈ t.source.running)) (emitted t.source (t.run before).source)
          (GameKey.steam appid)).IsChain (· ≠ ·) ∧
        (history (decide (appid ∈ t.source.running)) (emitted t.source (t.run before).source)
          (GameKey.steam appid)).getLast? =
            some (decide (appid ∈ (t.run before).source.running))) ∧
    (∀ before w, wakes = before ++ [w] →
      (t.run wakes).content.length - (t.run before).cursor ≤ maxDrainBytes →
      emitted t.source (t.run wakes).source =
        (feed t.source.running (lines lf ((t.run wakes).content.drop t.cursor))).2) ∧
    ∀ idle, (∀ w ∈ idle, w.Idle ∧ ∀ sent, w.alive sent = true) →
      (lines lf ((t.run wakes).content.drop (t.run wakes).cursor)).length ≤ idle.length →
      emitted t.source (t.run (wakes ++ idle)).source =
        (feed t.source.running (lines lf ((t.run wakes).content.drop t.cursor))).2 := by
  have h_wakes := h_line.run_follows h_alive
  refine ⟨?_, ?_, ?_⟩
  · rintro before after rfl
    have h_before := h_line.run_follows fun w hw => h_alive w (List.mem_append_left after hw)
    have h_after := h_before.atLine.run_follows fun w hw => h_alive w (List.mem_append_right before hw)
    rw [← Tailing.run_append] at h_after
    rw [h_before.fed.emitted, h_before.fed.running]
    exact ⟨h_before.atLine, h_before.le, h_after.le, rfl, feed_history _ _⟩
  · rintro before w rfl h_len
    refine h_wakes.emitted_all h_line ?_
    have h_before := h_line.run_follows fun w' hw => h_alive w' (List.mem_append_left [w] hw)
    rw [Tailing.run_append] at h_text h_short h_len ⊢
    -- the last wake-up takes all that is left
    have h_old := h_before.atLine.append w.appended
    have h_taken := (h_old.readable h_text h_short).taken_eq h_len
    have h_lines := lines_taken h_old
    rw [h_taken, lines_terminated] at h_lines
    show lines lf (((t.run before).content ++ w.appended).drop ((t.run before).wake w).cursor) = []
    rw [h_before.atLine.wake_cursor w, h_taken]
    exact List.append_right_eq_self.mp h_lines.symm
  · intro idle h_idle h_len
    have h_rest := h_wakes.atLine.run_follows fun w hw => (h_idle w hw).2
    obtain ⟨h_content, _, h_none⟩ := (h_wakes.atLine.readable h_text h_short).run
      (fun w hw => (h_idle w hw).1) h_wakes.atLine h_len
    have h_all := (h_wakes.trans h_line h_rest).emitted_all h_line
    rw [h_content] at h_all
    rw [Tailing.run_append]
    exact h_all h_none

/-- A drain around which nothing changes. -/
def DrainOutlet.steady : DrainOutlet where
  alive := fun _ => true
  now := fun _ => .firstDay 0
  resolveName := fun _ appid => appid

/-- A line that Steam writes when a game starts. -/
def startLine : List UInt8 :=
  encode "[t] AppID 440 state changed : App Running,\n".toList

theorem startLine_length_le : startLine.length ≤ maxDrainBytes := by decide +kernel

theorem startLine_atLine : AtLine startLine startLine.length :=
  ⟨le_rfl, Or.inr ⟨startLine.dropLast, by decide +kernel⟩⟩

theorem startLine_text (position : ℕ) (h : AtLine startLine position) :
    (decode (startLine.take position)).isSome = true := by
  refine decode_take ?_ h.terminated
  rw [startLine, decode_encode]
  rfl

theorem startLine_short (line : List UInt8) (h : line ∈ lines lf startLine) :
    line.length ≤ maxDrainBytes := (length_le_of_mem_lines h).trans startLine_length_le

/-- A line that is seen in two parts is fed once. -/
theorem tail_exactly_once_parts :
    emitted {} (Tailing.run ⟨[], 0, {}⟩
        [⟨.steady, startLine.take 20⟩, ⟨.steady, startLine.drop 20⟩]).source =
      (feed ∅ (lines lf startLine)).2 := by
  -- the two halves put together are the line
  have h_content : (Tailing.run ⟨[], 0, {}⟩
      [⟨.steady, startLine.take 20⟩, ⟨.steady, startLine.drop 20⟩]).content = startLine :=
    List.take_append_drop 20 startLine
  -- the theorem at the second wake, where the content is the whole line
  have h := (tail_exactly_once ⟨[], 0, {}⟩
    [⟨.steady, startLine.take 20⟩, ⟨.steady, startLine.drop 20⟩] (by simp [DrainOutlet.steady])
    (AtLine.zero _) ?_ ?_).2.1 [⟨.steady, startLine.take 20⟩] ⟨.steady, startLine.drop 20⟩ rfl
  · rw [h_content] at h
    exact h ((Nat.sub_le _ _).trans startLine_length_le)
  · rw [h_content]
    exact startLine_text
  · rw [h_content]
    exact startLine_short

/-! ### The log that stops the source -/

/-- The state after some drains of a log that has stopped changing. -/
def Tailing.passes (t : Tailing) (outlets : ℕ → DrainOutlet) (n : ℕ) : Tailing :=
  t.run ((List.range n).map fun i => ⟨outlets i, []⟩)

theorem Tailing.passes_succ (t : Tailing) (outlets : ℕ → DrainOutlet) (n : ℕ) :
    t.passes outlets (n + 1) = (t.passes outlets n).wake ⟨outlets n, []⟩ := by
  unfold passes
  rw [List.range_succ, List.map_append, run_append]
  rfl

theorem Tailing.passes_content (t : Tailing) (outlets : ℕ → DrainOutlet) (n : ℕ) :
    (t.passes outlets n).content = t.content := by
  induction n with
  | zero => rfl
  | succ n ih =>
    rw [passes_succ, ← ih]
    exact List.append_nil _

theorem Tailing.passes_atLine {t : Tailing} (h : AtLine t.content t.cursor)
    (outlets : ℕ → DrainOutlet) (n : ℕ) :
    AtLine t.content (t.passes outlets n).cursor ∧ t.cursor ≤ (t.passes outlets n).cursor := by
  induction n with
  | zero => exact ⟨h, le_rfl⟩
  | succ n ih =>
    have h_line : AtLine (t.passes outlets n).content (t.passes outlets n).cursor := by
      rw [t.passes_content]
      exact ih.1
    have h_next := h_line.wake ⟨outlets n, []⟩
    rw [← passes_succ, t.passes_content] at h_next
    refine ⟨h_next.1, ih.2.trans ?_⟩
    rw [passes_succ, h_line.wake_cursor]
    exact Nat.le_add_right _ _

/-- **A line that cannot be read is not passed**: what is taken ends before it. -/
theorem taken_stops {content pre body post : List UInt8} {cursor : ℕ} (h_pre : Terminated lf pre)
    (h_body : lf ∉ body) (h_drop : content.drop cursor = pre ++ ((body ++ [lf]) ++ post))
    (h_bad : (body ++ [lf]).length ≤ maxDrainBytes → (decode (body ++ [lf])).isSome = false) :
    (taken content cursor).length ≤ pre.length := by
  by_contra h_len
  rw [not_le] at h_len
  have h_prefix := taken_isPrefix content cursor
  rw [h_drop] at h_prefix
  -- what is taken would hold the line, so the line would fit, and be text
  obtain ⟨rest, h_taken⟩ := (taken_terminated content cursor).line_isPrefix h_body h_prefix h_len
  have h_mem : body ++ [lf] ∈ splitInclusive lf (taken content cursor) := by
    rw [← h_taken, List.append_assoc, splitInclusive_append h_pre,
      splitInclusive_append (Or.inr ⟨body, rfl⟩), splitInclusive_line h_body]
    exact List.mem_append_right _ List.mem_cons_self
  have h_fits : (body ++ [lf]).length ≤ maxDrainBytes := by
    refine le_trans ?_ (taken_length_le content cursor)
    rw [← h_taken, List.append_assoc]
    exact (List.infix_append' pre (body ++ [lf]) rest).length_le
  have h_text := (decode_isSome_iff (taken_terminated content cursor)).mp
    (taken_decodes content cursor) _ h_mem
  rw [h_bad h_fits] at h_text
  exact nomatch h_text

/-- **The cursor never gets past the start** of a line that cannot be read. -/
theorem Tailing.passes_stuck {t : Tailing} (outlets : ℕ → DrainOutlet)
    (h_line : AtLine t.content t.cursor) {pre body post : List UInt8} (h_pre : Terminated lf pre)
    (h_body : lf ∉ body) (h_drop : t.content.drop t.cursor = pre ++ ((body ++ [lf]) ++ post))
    (h_bad : (body ++ [lf]).length ≤ maxDrainBytes → (decode (body ++ [lf])).isSome = false) (n : ℕ) :
    (t.passes outlets n).cursor ≤ t.cursor + pre.length := by
  -- the cursor stays before the line that cannot be decoded
  obtain ⟨h_before, h_rest, _⟩ := h_line.advance h_drop h_pre
  -- induction on the passes
  induction n with
  | zero => exact Nat.le_add_right _ _
  | succ n ih =>
    obtain ⟨h_now, h_le⟩ := Tailing.passes_atLine h_line outlets n
    -- what is left from the cursor on begins with lines before the bad one, or with the bad one
    have h_now_drop : t.content.drop (t.passes outlets n).cursor =
        (t.content.take (t.cursor + pre.length)).drop (t.passes outlets n).cursor ++
          ((body ++ [lf]) ++ post) := by
      rw [drop_eq_between t.content ih, h_rest]
    have h_taken := taken_stops (h_now.between h_before ih) h_body h_now_drop h_bad
    rw [List.length_drop, List.length_take_of_le h_before.le] at h_taken
    have h_now' : AtLine (t.passes outlets n).content (t.passes outlets n).cursor := by
      rw [t.passes_content]
      exact h_now
    rw [passes_succ, h_now'.wake_cursor]
    show _ + (taken ((t.passes outlets n).content ++ []) _).length ≤ _
    rw [List.append_nil, t.passes_content]
    omega

/-- **Tailing makes progress** past every line behind the cursor exactly if all of them fit into one
read and are text. -/
theorem progress_iff (t : Tailing) (outlets : ℕ → DrainOutlet) (h_line : AtLine t.content t.cursor) :
    (∀ position, t.cursor < position → AtLine t.content position →
      ∃ n, position ≤ (t.passes outlets n).cursor) ↔ Readable t.content t.cursor := by
  refine ⟨?_, ?_⟩
  · intro h_progress line h_mem
    by_contra h_unreadable
    obtain ⟨pre, body, post, h_pre, h_body, rfl, h_drop⟩ := exists_of_mem_lines h_mem
    have h_bad : (body ++ [lf]).length ≤ maxDrainBytes → (decode (body ++ [lf])).isSome = false :=
      fun h_fits => Bool.eq_false_iff.mpr fun h_text => h_unreadable ⟨h_fits, h_text⟩
    -- the end of the line is behind the cursor, and is not reached
    have h_drop' : t.content.drop t.cursor = (pre ++ (body ++ [lf])) ++ post := by
      rw [h_drop, ← List.append_assoc pre]
    obtain ⟨h_end, _, _⟩ := h_line.advance h_drop' (h_pre.append (Or.inr ⟨body, rfl⟩))
    have h_len : (pre ++ (body ++ [lf])).length = pre.length + (body.length + 1) := by
      rw [List.length_append, List.length_append, List.length_singleton]
    rw [h_len] at h_end
    obtain ⟨n, h_past⟩ := h_progress _ (by omega) h_end
    have h_le := t.passes_stuck outlets h_line h_pre h_body h_drop h_bad n
    omega
  · intro h_readable position h_position h_end
    -- as many drains as there are lines leave none
    have h_idle : ∀ w ∈ (List.range (lines lf (t.content.drop t.cursor)).length).map
        fun i => (⟨outlets i, []⟩ : Wake), w.Idle := by
      intro w hw
      obtain ⟨i, _, rfl⟩ := List.mem_map.mp hw
      rfl
    obtain ⟨_, h_now, h_none⟩ := h_readable.run h_idle h_line (by simp)
    refine ⟨(lines lf (t.content.drop t.cursor)).length, ?_⟩
    by_contra h_before
    rw [not_le] at h_before
    have h_lt : (t.run ((List.range (lines lf (t.content.drop t.cursor)).length).map
        fun i => ⟨outlets i, []⟩)).cursor < position := h_before
    -- the position would be behind a complete line that is left
    rw [drop_eq_between t.content h_lt.le, lines_append (h_now.between h_end h_lt.le)] at h_none
    exact h_now.lines_ne_nil h_end h_lt (List.append_eq_nil_iff.mp h_none).1

/-- A line that can be read is passed. -/
theorem progress_iff_startLine :
    ∃ n, startLine.length ≤ (Tailing.passes ⟨startLine, 0, {}⟩ (fun _ => .steady) n).cursor := by
  refine (progress_iff ⟨startLine, 0, {}⟩ (fun _ => .steady) (AtLine.zero _)).mpr ?_ _
    (by decide +kernel) startLine_atLine
  exact (AtLine.zero startLine).readable startLine_text startLine_short

/-- **A byte that is not UTF-8 stops the source**: the line feed behind it is never passed. -/
theorem progress_stuck :
    AtLine [0xFF, lf] 2 ∧
      ∀ n, (Tailing.passes ⟨[0xFF, lf], 0, {}⟩ (fun _ => .steady) n).cursor = 0 := by
  have h_bad : (([0xFF] : List UInt8) ++ [lf]).length ≤ maxDrainBytes →
      (decode ([0xFF] ++ [lf])).isSome = false := fun _ => by decide +kernel
  have h_drop : ([0xFF, lf] : List UInt8).drop 0 = [] ++ (([0xFF] ++ [lf]) ++ []) := rfl
  refine ⟨AtLine.end [0xFF, lf], fun n => Nat.le_zero.mp ?_⟩
  exact Tailing.passes_stuck (t := ⟨[0xFF, lf], 0, {}⟩) (fun _ => .steady) (AtLine.zero _)
    (Or.inl rfl) (by decide) h_drop h_bad n

end Steam

end Ludex
