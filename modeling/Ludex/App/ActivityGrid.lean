import Mathlib.Data.Rat.Floor
import Mathlib.Tactic.FieldSimp
import Mathlib.Tactic.Linarith
import Mathlib.Tactic.Positivity
import Ludex.Lib.Spans

/-!
# The clock grid

`activityGrid.ts` draws each session as blocks in lanes, one lane a local day. Here it computes with
rational numbers. `Date.parse` is the parameter `parse`, and the boundaries of the lanes are those
the date cursor is set to, one after the other: any sequence that increases.

A block says by two percentages which part of its lane it covers (`Block.instants`), and that is the
part of the session in the lane (`clippedInstants_eq`). So nothing is lost or drawn twice when a
session goes on over boundaries (`buildLanes_conserve`).
-/

namespace Ludex

namespace ActivityGrid

/-- The fields of a session summary that are read. `endedAt` is empty while the session is open. -/
structure SessionRange where
  startedAt : String
  endedAt : String
deriving DecidableEq, Repr

/-- The footprint of a session within the lane of a day. -/
structure Block where
  leftPct : ℚ
  widthPct : ℚ
  seconds : ℤ
deriving DecidableEq, Repr

/-- A day row. -/
structure DayLane where
  dayStartMs : ℚ
  dayEndMs : ℚ
  blocks : List Block
  totalSeconds : ℤ
deriving DecidableEq, Repr

/-- `Math.round`: the closest integer, the greater of two. -/
def mathRound (x : ℚ) : ℤ := ⌊x + 1 / 2⌋

/-- `session.ended_at ? Date.parse(session.ended_at) : nowMs`. -/
def endedMs (parse : String → Option ℚ) (nowMs : ℚ) (session : SessionRange) : Option ℚ :=
  if session.endedAt = "" then some nowMs else parse session.endedAt

/-- Clip a session to the day `[dayStartMs, dayEndMs)`. `parse` is `none` where `Date.parse` is
NaN. -/
def clipToDay (parse : String → Option ℚ) (session : SessionRange)
    (dayStartMs dayEndMs nowMs : ℚ) : Option Block :=
  let span := dayEndMs - dayStartMs
  if span ≤ 0 then none
  else do
    let started ← parse session.startedAt
    let ended ← endedMs parse nowMs session
    let from_ := max started dayStartMs
    let to_ := min ended dayEndMs
    if to_ ≤ from_ then none
    else some {
      leftPct := (from_ - dayStartMs) / span * 100
      widthPct := (to_ - from_) / span * 100
      seconds := mathRound ((to_ - from_) / 1000) }

/-- One turn of the inner loop of `buildLanes`. -/
def DayLane.add (lane : DayLane) : Option Block → DayLane
  | none => lane
  | some block =>
    { lane with
      blocks := lane.blocks ++ [block]
      totalSeconds := lane.totalSeconds + block.seconds }

/-- Build `dayCount` consecutive lanes. `cursor i` is what `cursor.getTime()` returns after `i`
turns of the loop. -/
def buildLanes (parse : String → Option ℚ) (cursor : ℕ → ℚ) (sessions : List SessionRange)
    (dayCount : ℤ) (nowMs : ℚ) : List DayLane :=
  if dayCount ≤ 0 then []
  else (List.range dayCount.toNat).map fun i =>
    sessions.foldl
      (fun lane session =>
        lane.add (clipToDay parse session (cursor i) (cursor (i + 1)) nowMs))
      ⟨cursor i, cursor (i + 1), [], 0⟩

/-! ### What a block shows -/

/-- When the session was played: from its start to its end, or until now. -/
def played (parse : String → Option ℚ) (nowMs : ℚ) (session : SessionRange) : Option (ℚ × ℚ) := do
  let started ← parse session.startedAt
  let ended ← endedMs parse nowMs session
  return (started, ended)

/-- The session has a start, and an end after it. -/
def Contributes (parse : String → Option ℚ) (nowMs : ℚ) (session : SessionRange) : Prop :=
  ∃ span ∈ played parse nowMs session, span.1 < span.2

/-- The length of the intersection of the session with `[first, last)`. -/
def playedBetween (parse : String → Option ℚ) (nowMs : ℚ) (session : SessionRange)
    (first last : ℚ) : ℚ :=
  ((played parse nowMs session).map fun span => Spans.overlap span.1 span.2 first last).getD 0

/-- The length of a block, read off its width. -/
def Block.length (block : Block) (lane : DayLane) : ℚ :=
  block.widthPct / 100 * (lane.dayEndMs - lane.dayStartMs)

/-- The instants that a block covers, read off its place in the lane. -/
def Block.instants (block : Block) (lane : DayLane) : Set ℚ :=
  Set.Ico (lane.dayStartMs + block.leftPct / 100 * (lane.dayEndMs - lane.dayStartMs))
    (lane.dayStartMs + (block.leftPct + block.widthPct) / 100 *
      (lane.dayEndMs - lane.dayStartMs))

/-- The length of what is drawn of a session in a lane. -/
def clippedLength (parse : String → Option ℚ) (nowMs : ℚ) (session : SessionRange)
    (lane : DayLane) : ℚ :=
  ((clipToDay parse session lane.dayStartMs lane.dayEndMs nowMs).map fun block =>
    block.length lane).getD 0

/-- The instants that are drawn of a session in a lane. -/
def clippedInstants (parse : String → Option ℚ) (nowMs : ℚ) (session : SessionRange)
    (lane : DayLane) : Set ℚ :=
  {t | ∃ block ∈ clipToDay parse session lane.dayStartMs lane.dayEndMs nowMs,
    t ∈ block.instants lane}

/-- The instants at which the session was played. -/
def playedInstants (parse : String → Option ℚ) (nowMs : ℚ) (session : SessionRange) : Set ℚ :=
  {t | ∃ span ∈ played parse nowMs session, t ∈ Set.Ico span.1 span.2}

section Clip

variable {parse : String → Option ℚ} {nowMs : ℚ} {session : SessionRange} {lane : DayLane}
  {block : Block}

/-- A block of the lane from one instant to another one. -/
structure IsBlock (lane : DayLane) (from_ to_ : ℚ) (block : Block) : Prop where
  nonempty : from_ < to_
  left : block.leftPct = (from_ - lane.dayStartMs) / (lane.dayEndMs - lane.dayStartMs) * 100
  width : block.widthPct = (to_ - from_) / (lane.dayEndMs - lane.dayStartMs) * 100
  seconds : block.seconds = mathRound ((to_ - from_) / 1000)

/-- **What is drawn of a session**: the part of it in the lane, if there is one. -/
theorem mem_clipToDay (h_lane : lane.dayStartMs < lane.dayEndMs) :
    block ∈ clipToDay parse session lane.dayStartMs lane.dayEndMs nowMs ↔
      ∃ span ∈ played parse nowMs session,
        IsBlock lane (max span.1 lane.dayStartMs) (min span.2 lane.dayEndMs) block := by
  unfold clipToDay played
  -- the lane is not empty, so the early return for an empty day is not taken
  rw [if_neg (not_le.mpr (sub_pos.mpr h_lane))]
  -- a text that does not parse has no block on either side
  cases parse session.startedAt with
  | none => simp
  | some started =>
    cases endedMs parse nowMs session with
    | none => simp
    | some ended =>
      simp only [Option.bind_eq_bind, Option.bind_some, Option.pure_def, Option.mem_def,
        Option.some.injEq, exists_eq_left', Option.ite_none_left_eq_some, not_le]
      refine ⟨?_, ?_⟩
      · rintro ⟨h_nonempty, rfl⟩
        -- the block is the part of the span inside the day, in per cent of the day
        exact ⟨h_nonempty, rfl, rfl, rfl⟩
      · rintro ⟨h_nonempty, h_left, h_width, h_seconds⟩
        refine ⟨h_nonempty, ?_⟩
        rw [← h_left, ← h_width, ← h_seconds]

theorem IsBlock.length_eq {from_ to_ : ℚ} (h_lane : lane.dayStartMs < lane.dayEndMs)
    (h : IsBlock lane from_ to_ block) : block.length lane = to_ - from_ := by
  have h_span := (sub_pos.mpr h_lane).ne'
  unfold Block.length
  rw [h.width]
  field_simp

theorem IsBlock.instants_eq {from_ to_ : ℚ} (h_lane : lane.dayStartMs < lane.dayEndMs)
    (h : IsBlock lane from_ to_ block) : block.instants lane = Set.Ico from_ to_ := by
  have h_span := (sub_pos.mpr h_lane).ne'
  unfold Block.instants
  congr 1
  · rw [h.left]
    field_simp
    ring
  · rw [h.left, h.width]
    field_simp
    ring

/-- A block does not leave its lane. -/
theorem IsBlock.inside {from_ to_ : ℚ} (h_lane : lane.dayStartMs < lane.dayEndMs)
    (h : IsBlock lane from_ to_ block) (h_from : lane.dayStartMs ≤ from_)
    (h_to : to_ ≤ lane.dayEndMs) :
    0 ≤ block.leftPct ∧ 0 < block.widthPct ∧ block.leftPct + block.widthPct ≤ 100 := by
  -- both widths are positive, so the fractions can be compared
  have h_span := sub_pos.mpr h_lane
  have h_nonempty := sub_pos.mpr h.nonempty
  rw [h.left, h.width]
  refine ⟨?_, ?_, ?_⟩
  · have h_left := sub_nonneg.mpr h_from
    positivity
  · positivity
  · -- the right end of the block in per cent is its own part of the day
    calc
      (from_ - lane.dayStartMs) / (lane.dayEndMs - lane.dayStartMs) * 100 +
          (to_ - from_) / (lane.dayEndMs - lane.dayStartMs) * 100
        = (to_ - lane.dayStartMs) / (lane.dayEndMs - lane.dayStartMs) * 100 := by ring
      _ ≤ 1 * 100 := by
        have h_part := (div_le_one h_span).mpr (sub_le_sub_right h_to lane.dayStartMs)
        linarith
      _ = 100 := one_mul 100

/-- **The instants that are drawn** are those of the session in the lane. -/
theorem clippedInstants_eq (h_lane : lane.dayStartMs < lane.dayEndMs) :
    clippedInstants parse nowMs session lane =
      playedInstants parse nowMs session ∩ Set.Ico lane.dayStartMs lane.dayEndMs := by
  ext t
  unfold clippedInstants playedInstants
  simp only [Set.mem_ofPred_eq, Set.mem_inter_iff, mem_clipToDay h_lane]
  refine ⟨?_, ?_⟩
  · -- a block covers the part of the span inside the lane
    rintro ⟨block, ⟨span, h_played, h_block⟩, h_t⟩
    rw [h_block.instants_eq h_lane, ← Set.Ico_inter_Ico] at h_t
    exact ⟨⟨span, h_played, h_t.1⟩, h_t.2⟩
  · -- and every instant of that part lies in the block of its span
    rintro ⟨⟨span, h_played, h_t⟩, h_in⟩
    have h_both : t ∈ Set.Ico (max span.1 lane.dayStartMs) (min span.2 lane.dayEndMs) := by
      rw [← Set.Ico_inter_Ico]
      exact ⟨h_t, h_in⟩
    have h_block : IsBlock lane (max span.1 lane.dayStartMs) (min span.2 lane.dayEndMs)
        ⟨_, _, _⟩ := ⟨h_both.1.trans_lt h_both.2, rfl, rfl, rfl⟩
    refine ⟨_, ⟨span, h_played, h_block⟩, ?_⟩
    rwa [h_block.instants_eq h_lane]

/-- The length that is drawn is the one of the part of the session in the lane. -/
theorem clippedLength_eq (h_lane : lane.dayStartMs < lane.dayEndMs) :
    clippedLength parse nowMs session lane =
      playedBetween parse nowMs session lane.dayStartMs lane.dayEndMs := by
  unfold clippedLength playedBetween
  cases h_clip : clipToDay parse session lane.dayStartMs lane.dayEndMs nowMs with
  | some block =>
    obtain ⟨span, h_played, h_block⟩ := (mem_clipToDay h_lane).mp h_clip
    rw [Option.mem_def.mp h_played]
    show block.length lane = Spans.length _ _
    rw [h_block.length_eq h_lane, Spans.length_of_le h_block.nonempty.le]
  | none =>
    cases h_played : played parse nowMs session with
    | none => rfl
    | some span =>
      -- a part that is not empty would have been drawn
      have h_empty : min span.2 lane.dayEndMs ≤ max span.1 lane.dayStartMs := by
        by_contra h_part
        have h_block : IsBlock lane (max span.1 lane.dayStartMs) (min span.2 lane.dayEndMs)
            ⟨_, _, _⟩ := ⟨not_le.mp h_part, rfl, rfl, rfl⟩
        have h_mem := (mem_clipToDay h_lane).mpr ⟨span, h_played, h_block⟩
        rw [h_clip] at h_mem
        exact absurd h_mem (by simp)
      exact (Spans.length_of_ge h_empty).symm

/-- A session that does not contribute is not drawn. -/
theorem clipToDay_eq_none (h_lane : lane.dayStartMs < lane.dayEndMs)
    (h : ¬ Contributes parse nowMs session) :
    clipToDay parse session lane.dayStartMs lane.dayEndMs nowMs = none := by
  refine Option.eq_none_iff_forall_not_mem.mpr fun block h_mem => h ?_
  obtain ⟨span, h_played, h_block⟩ := (mem_clipToDay h_lane).mp h_mem
  refine ⟨span, h_played, ?_⟩
  calc
    span.1 ≤ max span.1 lane.dayStartMs := le_max_left _ _
    _ < min span.2 lane.dayEndMs := h_block.nonempty
    _ ≤ span.2 := min_le_left _ _

end Clip

/-! ### The lanes -/

/-- The lanes show the sessions from `first` to `last`: their lengths add up, no instant of a session
is in two lanes, and each block is in its own one. A session that does not contribute has no
block. -/
structure Conserves (parse : String → Option ℚ) (nowMs : ℚ) (sessions : List SessionRange)
    (first last : ℚ) (lanes : List DayLane) : Prop where
  blocks : ∀ lane ∈ lanes, lane.blocks = sessions.filterMap fun session =>
    clipToDay parse session lane.dayStartMs lane.dayEndMs nowMs
  total : ∀ lane ∈ lanes, lane.totalSeconds = (lane.blocks.map Block.seconds).sum
  lengths : ∀ session ∈ sessions, (lanes.map (clippedLength parse nowMs session)).sum =
    playedBetween parse nowMs session first last
  once : ∀ session ∈ sessions, lanes.Pairwise fun lane lane' =>
    ∀ t ∈ clippedInstants parse nowMs session lane, t ∉ clippedInstants parse nowMs session lane'
  drawn : ∀ session ∈ sessions, ∀ t ∈ playedInstants parse nowMs session, first ≤ t → t < last →
    ∃ lane ∈ lanes, t ∈ clippedInstants parse nowMs session lane
  inside : ∀ lane ∈ lanes, ∀ block ∈ lane.blocks,
    0 ≤ block.leftPct ∧ 0 < block.widthPct ∧ block.leftPct + block.widthPct ≤ 100
  nothing : ∀ session, ¬ Contributes parse nowMs session → ∀ lane ∈ lanes,
    clipToDay parse session lane.dayStartMs lane.dayEndMs nowMs = none

section Lanes

variable {parse : String → Option ℚ} {cursor : ℕ → ℚ} {sessions : List SessionRange}
  {dayCount : ℤ} {nowMs : ℚ}

/-- The inner loop. -/
theorem foldl_add (clip : SessionRange → Option Block) (sessions : List SessionRange)
    (lane : DayLane) :
    sessions.foldl (fun lane session => lane.add (clip session)) lane =
      { lane with
        blocks := lane.blocks ++ sessions.filterMap clip
        totalSeconds :=
          lane.totalSeconds + ((sessions.filterMap clip).map Block.seconds).sum } := by
  induction sessions generalizing lane with
  | nil => simp
  | cons session sessions ih =>
    rw [List.foldl_cons, ih]
    cases h_clip : clip session with
    | none => simp [DayLane.add, h_clip]
    | some block => simp [DayLane.add, h_clip, add_assoc]

/-- The lane between two boundaries. -/
def laneBetween (parse : String → Option ℚ) (sessions : List SessionRange) (nowMs : ℚ)
    (dayStartMs dayEndMs : ℚ) : DayLane where
  dayStartMs := dayStartMs
  dayEndMs := dayEndMs
  blocks := sessions.filterMap fun session => clipToDay parse session dayStartMs dayEndMs nowMs
  totalSeconds := ((sessions.filterMap fun session =>
    clipToDay parse session dayStartMs dayEndMs nowMs).map Block.seconds).sum

theorem buildLanes_eq :
    buildLanes parse cursor sessions dayCount nowMs =
      (List.range dayCount.toNat).map fun i =>
        laneBetween parse sessions nowMs (cursor i) (cursor (i + 1)) := by
  -- the lanes are filled one after the other, each from the sessions as they came
  have h_lane : ∀ i, sessions.foldl
      (fun lane session => lane.add (clipToDay parse session (cursor i) (cursor (i + 1)) nowMs))
      ⟨cursor i, cursor (i + 1), [], 0⟩ =
        laneBetween parse sessions nowMs (cursor i) (cursor (i + 1)) := by
    intro i
    rw [foldl_add]
    simp [laneBetween]
  unfold buildLanes
  simp only [h_lane]
  split
  · -- no day is shown
    next h_none =>
    rw [Int.toNat_of_nonpos h_none]
    rfl
  · rfl

/-- The parts of a session between the boundaries add up. -/
theorem sum_playedBetween {session : SessionRange} {n : ℕ}
    (h_bounds : ∀ i < n, cursor i ≤ cursor (i + 1)) :
    ((List.range n).map fun i =>
      playedBetween parse nowMs session (cursor i) (cursor (i + 1))).sum =
        playedBetween parse nowMs session (cursor 0) (cursor n) := by
  unfold playedBetween
  cases played parse nowMs session with
  | none => exact List.sum_eq_zero (List.forall_mem_map.mpr fun _ _ => rfl)
  | some span => exact Spans.sum_overlap h_bounds span.1 span.2

/-- **The lanes conserve play**, whatever the boundaries are, as long as each is after the one
before. -/
theorem buildLanes_conserve (parse : String → Option ℚ) (cursor : ℕ → ℚ)
    (sessions : List SessionRange) (dayCount : ℤ) (nowMs : ℚ)
    (h_cursor : ∀ i < dayCount.toNat, cursor i < cursor (i + 1)) :
    Conserves parse nowMs sessions (cursor 0) (cursor dayCount.toNat)
      (buildLanes parse cursor sessions dayCount nowMs) := by
  have h_bounds : ∀ i < dayCount.toNat, cursor i ≤ cursor (i + 1) := fun i hi => (h_cursor i hi).le
  -- every lane is the one of its cell
  have h_mem : ∀ lane ∈ buildLanes parse cursor sessions dayCount nowMs, ∃ i < dayCount.toNat,
      lane = laneBetween parse sessions nowMs (cursor i) (cursor (i + 1)) := by
    intro lane h_lane
    rw [buildLanes_eq] at h_lane
    obtain ⟨i, h_i, rfl⟩ := List.mem_map.mp h_lane
    exact ⟨i, List.mem_range.mp h_i, rfl⟩
  refine ⟨?_, ?_, ?_, ?_, ?_, ?_, ?_⟩
  · intro lane h_lane
    obtain ⟨i, -, rfl⟩ := h_mem lane h_lane
    rfl
  · intro lane h_lane
    obtain ⟨i, -, rfl⟩ := h_mem lane h_lane
    rfl
  · -- the parts of a session add up to what of it lies in the window
    intro session _
    rw [buildLanes_eq, List.map_map]
    refine Eq.trans (congrArg List.sum (List.map_congr_left fun i h_i => ?_))
      (sum_playedBetween h_bounds)
    exact clippedLength_eq (h_cursor i (List.mem_range.mp h_i))
  · -- two cells have no instant in common
    intro session _
    rw [buildLanes_eq, List.pairwise_map]
    refine List.pairwise_lt_range.imp_of_mem fun {i j} h_i h_j h_ij => ?_
    rw [List.mem_range] at h_i h_j
    rw [clippedInstants_eq (h_cursor i h_i), clippedInstants_eq (h_cursor j h_j)]
    exact fun t h_t h_t' => Spans.disjoint_cells h_bounds h_ij h_j h_t.2 h_t'.2
  · -- every instant of the window lies in some cell
    intro session _ t h_t h_first h_last
    obtain ⟨i, h_i, h_cell⟩ := Spans.exists_cell t h_first h_last
    refine ⟨laneBetween parse sessions nowMs (cursor i) (cursor (i + 1)), ?_, ?_⟩
    · rw [buildLanes_eq]
      exact List.mem_map.mpr ⟨i, List.mem_range.mpr h_i, rfl⟩
    · rw [clippedInstants_eq (h_cursor i h_i)]
      exact ⟨h_t, h_cell⟩
  · -- no block leaves its lane
    intro lane h_lane block h_block
    obtain ⟨i, h_i, rfl⟩ := h_mem lane h_lane
    obtain ⟨session, -, h_clip⟩ := List.mem_filterMap.mp h_block
    have h_lane : (laneBetween parse sessions nowMs (cursor i) (cursor (i + 1))).dayStartMs <
        (laneBetween parse sessions nowMs (cursor i) (cursor (i + 1))).dayEndMs := h_cursor i h_i
    obtain ⟨span, -, h_is⟩ := (mem_clipToDay h_lane).mp h_clip
    exact h_is.inside h_lane (le_max_right _ _) (min_le_right _ _)
  · -- a session that does not reach into the cell has no block there
    intro session h_session lane h_lane
    obtain ⟨i, h_i, rfl⟩ := h_mem lane h_lane
    exact clipToDay_eq_none (h_cursor i h_i) h_session

/-- Two texts, as the milliseconds from the first midnight. -/
def parseTwo (text : String) : Option ℚ :=
  if text = "22:00" then some 79200000 else if text = "26:30" then some 95400000 else none

/-- Midnights of days of 24 hours. -/
def midnight (i : ℕ) : ℚ := 86400000 * i

/-- A session over midnight, and one whose end does not parse, in the lanes of two days. -/
theorem overMidnight_conserved :
    Conserves parseTwo 0 [⟨"22:00", "26:30"⟩, ⟨"22:00", "later"⟩] (midnight 0) (midnight 2)
      (buildLanes parseTwo midnight [⟨"22:00", "26:30"⟩, ⟨"22:00", "later"⟩] 2 0) := by
  refine buildLanes_conserve parseTwo midnight _ 2 0 fun i _ => ?_
  unfold midnight
  push_cast
  linarith

example : (buildLanes parseTwo midnight [⟨"22:00", "26:30"⟩, ⟨"22:00", "later"⟩] 2 0).map
    DayLane.totalSeconds = [7200, 9000] := by
  decide +kernel

end Lanes

end ActivityGrid

end Ludex
