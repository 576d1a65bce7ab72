import Mathlib.Algebra.Ring.Int.Defs
import Ludex.Lib.I64
import Ludex.Lib.Splitting
import Ludex.Core.SessionQueries

/-!
# `session_merge.rs`

The display-level fold of adjacent sessions of one application. `fold` is a loop over the rows,
newest first, that extends the last span of its output or begins a new one. `merge_adjacent_recent`
and `merge_adjacent_session` call it with the closures of their row types.

The loop compares a row with a span that it has been changing, and `fold_spans` says that this is
the same as comparing it with the row before: the output are the parts of `List.splitBy` for a
relation between neighbours (`cutBetween`), each made into a span. That carries over what is known
of the parts: `mergeAdjacent_localSplit` has the contents of the spans, that folding them again
changes nothing, and that a larger gap only unites them.
-/

namespace Ludex

namespace SessionMerge

open I64

/-! ### The fold -/

/-- The `f64` nearest to a whole number, ties to even. From `2 ^ 53` on not every number has one,
and the nearest is again a whole number. -/
def asF64 (n : ℕ) : ℕ :=
  let unit := 2 ^ (n.log2 - 52)
  let lost := n % unit
  let up := unit < 2 * lost ∨ unit = 2 * lost ∧ n / unit % 2 = 1
  (if up then n / unit + 1 else n / unit) * unit

/-- A `Duration` of whole seconds whose conversion to `time::Duration` does not panic. -/
structure Gap where
  seconds : ℕ
  representable : asF64 seconds < 2 ^ 63

/-- `time::Duration::seconds_f64(gap.as_secs_f64())`, in nanoseconds. -/
def Gap.duration (gap : Gap) : ℤ := asF64 gap.seconds * Calendar.nanosPerSecond

/-- Default merge gap the daemon applies before serving session lists. -/
def defaultMergeGap : Gap := ⟨60, by decide⟩

/-- The closures that fix the row type of a fold. -/
structure Closures (T : Type) where
  applicationIdOf : T → ℤ
  idOf : T → ℤ
  startedAtOf : T → OffsetDateTime
  endedAtOf : T → Option OffsetDateTime
  mergeInto : T → T → T

section Fold

variable {T : Type} (c : Closures T)

/-- The older row `row` belongs to the span `acc`. A row that is still open never does. -/
def mergeable (gap : ℤ) (acc row : T) : Bool :=
  c.applicationIdOf acc = c.applicationIdOf row &&
    match c.endedAtOf row with
    | none => false
    | some end_ => (c.startedAtOf acc).unixNanos - end_.unixNanos ≤ gap

/-- One turn of the loop. -/
def foldRow (gap : ℤ) (out : List (T × List ℤ)) (row : T) : List (T × List ℤ) :=
  match out.getLast? with
  | none => out ++ [(row, [c.idOf row])]
  | some (acc, frags) =>
    if mergeable c gap acc row then
      out.dropLast ++ [(c.mergeInto acc row, frags ++ [c.idOf row])]
    else
      out ++ [(row, [c.idOf row])]

/-- Fold consecutive rows into spans, with the ids of the rows of each. -/
def fold (rows : List T) (gap : Gap) : List (T × List ℤ) :=
  rows.foldl (foldRow c gap.duration) []

end Fold

/-- Absorb the older row into the span. -/
def mergeRecent (acc older : RecentSession) : RecentSession :=
  { acc with
    startedAt := older.startedAt
    fullRuntimeSeconds := saturatingAdd acc.fullRuntimeSeconds older.fullRuntimeSeconds
    interactiveRuntimeSeconds :=
      saturatingAdd acc.interactiveRuntimeSeconds older.interactiveRuntimeSeconds }

/-- Absorb the older row into the span. -/
def mergeSession (acc older : Session) : Session :=
  { acc with
    startedAt := older.startedAt
    fullRuntimeSeconds := saturatingAdd acc.fullRuntimeSeconds older.fullRuntimeSeconds
    interactiveRuntimeSeconds :=
      saturatingAdd acc.interactiveRuntimeSeconds older.interactiveRuntimeSeconds }

def recentClosures : Closures RecentSession where
  applicationIdOf := RecentSession.applicationId
  idOf := RecentSession.id
  startedAtOf := RecentSession.startedAt
  endedAtOf := RecentSession.endedAt
  mergeInto := mergeRecent

def sessionClosures : Closures Session where
  applicationIdOf := Session.applicationId
  idOf := Session.id
  startedAtOf := Session.startedAt
  endedAtOf := Session.endedAt
  mergeInto := mergeSession

/-- Fold the rows of `list_recent_with_app`. -/
def mergeAdjacentRecent (rows : List RecentSession) (gap : Gap) : List (RecentSession × List ℤ) :=
  fold recentClosures rows gap

/-- Fold the rows of `list_for_application`. -/
def mergeAdjacentSession (rows : List Session) (gap : Gap) : List (Session × List ℤ) :=
  fold sessionClosures rows gap

/-- **Below `2 ^ 53` the conversion is exact.** -/
theorem asF64_eq {n : ℕ} (h : n < 2 ^ 53) : asF64 n = n := by
  have h_unit : n.log2 - 52 = 0 := by
    by_cases h_zero : n = 0
    · subst h_zero
      rfl
    · have h_log := (Nat.log2_lt h_zero).mpr h
      omega
  simp only [asF64, h_unit, Nat.pow_zero, Nat.mod_one, Nat.div_one, Nat.mul_one]
  rw [if_neg (by omega)]

/-! ### What a span is -/

/-- The other columns of a row type, and what its merge does to them. -/
structure Columns {T : Type} (c : Closures T) where
  fullOf : T → ℤ
  interactiveOf : T → ℤ
  exitReasonOf : T → Option ExitReason
  applicationId_merge : ∀ acc older,
    c.applicationIdOf (c.mergeInto acc older) = c.applicationIdOf acc
  id_merge : ∀ acc older, c.idOf (c.mergeInto acc older) = c.idOf acc
  startedAt_merge : ∀ acc older, c.startedAtOf (c.mergeInto acc older) = c.startedAtOf older
  endedAt_merge : ∀ acc older, c.endedAtOf (c.mergeInto acc older) = c.endedAtOf acc
  exitReason_merge : ∀ acc older, exitReasonOf (c.mergeInto acc older) = exitReasonOf acc
  full_merge : ∀ acc older,
    fullOf (c.mergeInto acc older) = saturatingAdd (fullOf acc) (fullOf older)
  interactive_merge : ∀ acc older,
    interactiveOf (c.mergeInto acc older) = saturatingAdd (interactiveOf acc) (interactiveOf older)

def recentColumns : Columns recentClosures where
  fullOf := RecentSession.fullRuntimeSeconds
  interactiveOf := RecentSession.interactiveRuntimeSeconds
  exitReasonOf := RecentSession.exitReason
  applicationId_merge _ _ := rfl
  id_merge _ _ := rfl
  startedAt_merge _ _ := rfl
  endedAt_merge _ _ := rfl
  exitReason_merge _ _ := rfl
  full_merge _ _ := rfl
  interactive_merge _ _ := rfl

def sessionColumns : Columns sessionClosures where
  fullOf := Session.fullRuntimeSeconds
  interactiveOf := Session.interactiveRuntimeSeconds
  exitReasonOf := Session.exitReason
  applicationId_merge _ _ := rfl
  id_merge _ _ := rfl
  startedAt_merge _ _ := rfl
  endedAt_merge _ _ := rfl
  exitReason_merge _ _ := rfl
  full_merge _ _ := rfl
  interactive_merge _ _ := rfl

/-- Two neighbours belong to different spans: `gap` is in nanoseconds. -/
def cutBetween {T : Type} (c : Closures T) (gap : ℤ) (newer older : T) : Bool :=
  c.applicationIdOf newer ≠ c.applicationIdOf older ||
    match c.endedAtOf older with
    | none => true
    | some end_ => gap < (c.startedAtOf newer).unixNanos - end_.unixNanos

/-- The maximal runs of neighbours that are not cut apart. -/
def runs {T : Type} (c : Closures T) (gap : ℤ) (rows : List T) : List (List T) :=
  rows.splitBy fun newer older => !cutBetween c gap newer older

/-- The span a run of rows, newest first, is made into. -/
structure IsSpan {T : Type} {c : Closures T} (cols : Columns c) (run : List T)
    (span : T × List ℤ) : Prop where
  fragments : span.2 = run.map c.idOf
  newest : ∀ row ∈ run.head?, c.applicationIdOf span.1 = c.applicationIdOf row ∧
    c.idOf span.1 = c.idOf row ∧ c.endedAtOf span.1 = c.endedAtOf row ∧
      cols.exitReasonOf span.1 = cols.exitReasonOf row
  oldest : ∀ row ∈ run.getLast?, c.startedAtOf span.1 = c.startedAtOf row
  full : cols.fullOf span.1 = saturatingSum (run.map cols.fullOf)
  interactive : cols.interactiveOf span.1 = saturatingSum (run.map cols.interactiveOf)

/-! ### The loop -/

section Loop

variable {T : Type} {c : Closures T}

/-- The span that a row and the older rows after it are made into. -/
def spanOf (c : Closures T) (row : T) (older : List T) : T × List ℤ :=
  (older.foldl c.mergeInto row, (row :: older).map c.idOf)

/-- The span is made of the run, in which no two neighbours are cut apart. -/
def MadeOf (c : Closures T) (gap : ℤ) (run : List T) (span : T × List ℤ) : Prop :=
  ∃ row older, run = row :: older ∧ span = spanOf c row older ∧
    (row :: older).IsChain fun newer older => !cutBetween c gap newer older

theorem mergeable_eq (gap : ℤ) (acc row : T) :
    mergeable c gap acc row = !cutBetween c gap acc row := by
  unfold mergeable cutBetween
  rw [Bool.not_or]
  refine congrArg₂ and (by simp) ?_
  cases c.endedAtOf row with
  | none => rfl
  | some end_ =>
    show decide (_ ≤ gap) = !decide (gap < _)
    rw [← decide_not]
    exact decide_eq_decide.mpr not_lt.symm

/-- What the loop sees of its last span is what it would see of the last row. -/
def Agrees (c : Closures T) (acc row : T) : Prop :=
  c.applicationIdOf acc = c.applicationIdOf row ∧ c.startedAtOf acc = c.startedAtOf row

theorem Agrees.cutBetween_eq {acc row : T} (h : Agrees c acc row) (gap : ℤ) (older : T) :
    cutBetween c gap acc older = cutBetween c gap row older := by
  unfold cutBetween
  rw [h.1, h.2]

theorem sameApplication_of_not_cut {gap : ℤ} {newer older : T}
    (h : (!cutBetween c gap newer older) = true) :
    c.applicationIdOf newer = c.applicationIdOf older := by
  unfold cutBetween at h
  rw [Bool.not_or, Bool.and_eq_true] at h
  simpa using h.1

/-- Along a run the span follows the last row. -/
theorem Columns.agrees (cols : Columns c) {gap : ℤ} {acc row : T} {older : List T}
    (h_acc : Agrees c acc row)
    (h : (row :: older).IsChain fun newer older => !cutBetween c gap newer older) :
    Agrees c (older.foldl c.mergeInto acc) ((row :: older).getLast (List.cons_ne_nil row older)) := by
  -- induction on the rows of the span: each is of the same application as the one before
  induction older generalizing acc row with
  | nil => exact h_acc
  | cons next older ih =>
    obtain ⟨h_next, h_rest⟩ := List.isChain_cons_cons.mp h
    rw [List.foldl_cons, List.getLast_cons (List.cons_ne_nil next older)]
    refine ih ⟨?_, cols.startedAt_merge acc next⟩ h_rest
    calc c.applicationIdOf (c.mergeInto acc next)
        = c.applicationIdOf acc := cols.applicationId_merge acc next
      _ = c.applicationIdOf row := h_acc.1
      _ = c.applicationIdOf next := sameApplication_of_not_cut h_next

/-- **The loop invariant.** The last span is made of a run that has begun, and the loop goes on as
if it split the run and the rows still to come. -/
theorem Columns.foldl_foldRow (cols : Columns c) (gap : ℤ) (rows : List T) (row : T)
    (older : List T) (h : (row :: older).IsChain fun newer older => !cutBetween c gap newer older)
    (out : List (T × List ℤ)) :
    ∃ spans, rows.foldl (foldRow c gap) (out ++ [spanOf c row older]) = out ++ spans ∧
      List.Forall₂ (MadeOf c gap) (runs c gap (row :: older ++ rows)) spans := by
  induction rows generalizing row older out with
  | nil =>
    refine ⟨[spanOf c row older], rfl, ?_⟩
    rw [List.append_nil, runs, List.splitBy_of_isChain (List.cons_ne_nil row older) h]
    exact List.Forall₂.cons ⟨row, older, rfl, rfl, h⟩ List.Forall₂.nil
  | cons next rows ih =>
    have h_last := cols.agrees (show Agrees c row row from ⟨rfl, rfl⟩) h
    have h_turn : foldRow c gap (out ++ [spanOf c row older]) next =
        if !cutBetween c gap ((row :: older).getLast (List.cons_ne_nil row older)) next then
          out ++ [spanOf c row (older ++ [next])]
        else out ++ [spanOf c row older] ++ [spanOf c next []] := by
      rw [← h_last.cutBetween_eq gap next, ← mergeable_eq, foldRow, List.getLast?_concat]
      show (if mergeable c gap _ next = true then _ else _) = _
      rw [List.dropLast_concat]
      simp [spanOf]
    rw [List.foldl_cons, h_turn]
    cases h_cut : cutBetween c gap ((row :: older).getLast (List.cons_ne_nil row older)) next with
    | false =>
      -- the row extends the span
      have h_chain : (row :: (older ++ [next])).IsChain
          fun newer older => !cutBetween c gap newer older := by
        rw [← List.cons_append]
        refine List.isChain_append.mpr ⟨h, List.isChain_singleton next, fun x hx y hy => ?_⟩
        obtain rfl : (row :: older).getLast (List.cons_ne_nil row older) = x :=
            List.getLast_of_mem_getLast? hx
        obtain rfl : next = y := Option.some.inj hy
        rw [h_cut]
        rfl
      obtain ⟨spans, h_fold, h_made⟩ := ih row (older ++ [next]) h_chain out
      refine ⟨spans, h_fold, ?_⟩
      rw [← List.cons_append, List.append_assoc] at h_made
      exact h_made
    | true =>
      -- the span is finished and the row begins a new one
      obtain ⟨spans, h_fold, h_made⟩ :=
        ih next [] (List.isChain_singleton next) (out ++ [spanOf c row older])
      refine ⟨spanOf c row older :: spans, ?_, ?_⟩
      · show rows.foldl (foldRow c gap) (out ++ [spanOf c row older] ++ [spanOf c next []]) = _
        rw [h_fold, List.append_assoc, List.singleton_append]
      · rw [runs, List.splitBy_append_cons rows fun x hx => ?_,
          List.splitBy_of_isChain (List.cons_ne_nil row older) h, List.singleton_append]
        · exact List.Forall₂.cons ⟨row, older, rfl, rfl, h⟩ h_made
        · obtain rfl : (row :: older).getLast (List.cons_ne_nil row older) = x :=
            List.getLast_of_mem_getLast? hx
          rw [h_cut]
          rfl

/-- **The fold is the split between neighbours**, each part made into a span. -/
theorem Columns.fold_spans (cols : Columns c) (rows : List T) (gap : Gap) :
    List.Forall₂ (MadeOf c gap.duration) (runs c gap.duration rows) (fold c rows gap) := by
  cases rows with
  | nil => exact List.Forall₂.nil
  | cons row rows =>
    obtain ⟨spans, h_fold, h_made⟩ :=
      cols.foldl_foldRow gap.duration rows row [] (List.isChain_singleton row) []
    have h_first : fold c (row :: rows) gap = spans := h_fold
    rw [h_first]
    exact h_made

/-! ### What the spans are -/

variable {gap : ℤ} {run : List T} {span : T × List ℤ}

/-- A column that a merge keeps is that of the newest row. -/
theorem foldl_mergeInto_keeps {β : Type} {g : T → β}
    (hg : ∀ acc older, g (c.mergeInto acc older) = g acc) (row : T) (older : List T) :
    g (older.foldl c.mergeInto row) = g row := by
  induction older generalizing row with
  | nil => rfl
  | cons next older ih => rw [List.foldl_cons, ih, hg]

/-- A column that a merge takes from the older row is that of the oldest one. -/
theorem foldl_mergeInto_takes {β : Type} {g : T → β}
    (hg : ∀ acc older, g (c.mergeInto acc older) = g older) (row : T) (older : List T) :
    g (older.foldl c.mergeInto row) = g ((row :: older).getLast (List.cons_ne_nil row older)) := by
  induction older generalizing row with
  | nil => rfl
  | cons next older ih =>
    rw [List.foldl_cons, List.getLast_cons (List.cons_ne_nil next older), ← ih next]
    -- the columns before the last merge do not matter
    cases older using List.reverseRecOn with
    | nil => exact hg row next
    | append_singleton older last => simp only [List.foldl_append, List.foldl_cons, List.foldl_nil, hg]

theorem foldl_mergeInto_adds {g : T → ℤ}
    (hg : ∀ acc older, g (c.mergeInto acc older) = saturatingAdd (g acc) (g older)) (row : T)
    (older : List T) : g (older.foldl c.mergeInto row) = saturatingSum ((row :: older).map g) := by
  show _ = (older.map g).foldl saturatingAdd (g row)
  induction older generalizing row with
  | nil => rfl
  | cons next older ih => rw [List.foldl_cons, ih, hg, List.map_cons, List.foldl_cons]

theorem MadeOf.isSpan (cols : Columns c) (h : MadeOf c gap run span) : IsSpan cols run span := by
  -- a span is the fold of its rows, so its columns are those of a fold
  obtain ⟨row, older, rfl, rfl, -⟩ := h
  refine ⟨rfl, ?_, ?_, ?_, ?_⟩
  · rintro newest h_newest
    obtain rfl : row = newest := Option.some.inj h_newest
    exact ⟨foldl_mergeInto_keeps cols.applicationId_merge row older,
      foldl_mergeInto_keeps cols.id_merge row older,
      foldl_mergeInto_keeps cols.endedAt_merge row older,
      foldl_mergeInto_keeps cols.exitReason_merge row older⟩
  · -- the start is the one of the oldest row
    rintro oldest h_oldest
    obtain rfl : (row :: older).getLast (List.cons_ne_nil row older) = oldest :=
      List.getLast_of_mem_getLast? h_oldest
    exact foldl_mergeInto_takes cols.startedAt_merge row older
  · -- the runtimes are the sums
    exact foldl_mergeInto_adds cols.full_merge row older
  · exact foldl_mergeInto_adds cols.interactive_merge row older

/-- Two spans are cut apart like the runs they are made of. -/
theorem MadeOf.cutBetween_eq (cols : Columns c) {run' : List T} {span' : T × List ℤ}
    (h : MadeOf c gap run span) (h' : MadeOf c gap run' span') (h_nil : run ≠ [])
    (h_nil' : run' ≠ []) :
    cutBetween c gap span.1 span'.1 = cutBetween c gap (run.getLast h_nil) (run'.head h_nil') := by
  obtain ⟨row, older, rfl, rfl, h_chain⟩ := h
  obtain ⟨row', older', rfl, rfl, -⟩ := h'
  -- as the newer one a span looks like its last row, as the older one like its first
  have h_newer := cols.agrees (show Agrees c row row from ⟨rfl, rfl⟩) h_chain
  have h_app : c.applicationIdOf (spanOf c row' older').1 = c.applicationIdOf row' :=
    foldl_mergeInto_keeps cols.applicationId_merge row' older'
  have h_end : c.endedAtOf (spanOf c row' older').1 = c.endedAtOf row' :=
    foldl_mergeInto_keeps cols.endedAt_merge row' older'
  rw [← h_newer.cutBetween_eq, List.head_cons]
  unfold cutBetween
  rw [h_app, h_end]
  rfl

/-- The ids of the spans are those of their runs. -/
theorem Columns.fragments_eq (cols : Columns c) (rows : List T) (gap : Gap) :
    (fold c rows gap).map Prod.snd = (runs c gap.duration rows).map (List.map c.idOf) := by
  have h_spans := cols.fold_spans rows gap
  generalize runs c gap.duration rows = parts at h_spans ⊢
  generalize fold c rows gap = spans at h_spans ⊢
  induction h_spans with
  | nil => rfl
  | cons h_made _ ih =>
    obtain ⟨row, older, rfl, rfl, -⟩ := h_made
    rw [List.map_cons, List.map_cons, ih]
    rfl

/-- The spans are cut apart. -/
theorem Columns.isChain_fold (cols : Columns c) (rows : List T) (gap : Gap) :
    ((fold c rows gap).map Prod.fst).IsChain fun a b =>
      (!cutBetween c gap.duration a b) = false := by
  rw [List.isChain_map]
  refine Splitting.isChain_of_forall₂ ?_ (cols.fold_spans rows gap)
    (List.isChain_getLast_head_splitBy _ rows)
  rintro run run' span span' h h' ⟨h_nil, h_nil', h_cut⟩
  rw [h.cutBetween_eq cols h' h_nil h_nil']
  exact h_cut

/-- **Folding the spans** again changes nothing. -/
theorem Columns.fold_fold (cols : Columns c) (rows : List T) (gap : Gap) :
    (fold c ((fold c rows gap).map Prod.fst) gap).map Prod.fst = (fold c rows gap).map Prod.fst := by
  have h_chain := cols.isChain_fold rows gap
  have h_spans := cols.fold_spans ((fold c rows gap).map Prod.fst) gap
  generalize (fold c rows gap).map Prod.fst = spans at h_chain h_spans ⊢
  rw [runs, Splitting.splitBy_of_isChain_not h_chain] at h_spans
  generalize fold c spans gap = again at h_spans ⊢
  -- each span is a run of its own, and made into itself
  clear h_chain
  induction spans generalizing again with
  | nil =>
    cases h_spans
    rfl
  | cons span spans ih =>
    cases h_spans with
    | cons h_made h_rest =>
      obtain ⟨row, older, h_run, rfl, -⟩ := h_made
      obtain ⟨rfl, rfl⟩ := List.cons.inj h_run
      rw [List.map_cons, ih _ h_rest]
      rfl

/-- **A larger gap** only unites spans. -/
theorem Columns.fold_coarser (cols : Columns c) (rows : List T) {gap gap' : Gap}
    (h : gap.duration ≤ gap'.duration) :
    ∃ groups : List (List (List ℤ)), groups.flatten = (fold c rows gap).map Prod.snd ∧
      groups.map List.flatten = (fold c rows gap').map Prod.snd := by
  -- a cut of the longer gap is one of the shorter
  have h_joins : ∀ newer older, (!cutBetween c gap.duration newer older) = true →
      (!cutBetween c gap'.duration newer older) = true := by
    intro newer older
    unfold cutBetween
    cases c.endedAtOf older with
    | none => simp
    | some end_ =>
      simp only [Bool.not_or, Bool.and_eq_true, Bool.not_eq_true', decide_eq_false_iff_not]
      rintro ⟨h_app, h_gap⟩
      exact ⟨h_app, fun h_lt => h_gap (lt_of_le_of_lt h h_lt)⟩
  -- so the spans of the longer gap are made of whole spans of the shorter
  obtain ⟨groups, h_flat, h_groups⟩ := Splitting.splitBy_coarser h_joins rows
  refine ⟨groups.map (List.map (List.map c.idOf)), ?_, ?_⟩
  · rw [cols.fragments_eq, runs, ← h_flat, List.map_flatten]
  · rw [cols.fragments_eq, runs, ← h_groups, List.map_map, List.map_map]
    refine List.map_congr_left fun group _ => ?_
    show (group.map (List.map c.idOf)).flatten = group.flatten.map c.idOf
    rw [List.map_flatten]

end Loop

/-! ### The two public folds -/

/-- A fold splits rows at local boundaries. `gap` is in whole seconds. -/
structure LocalSplit {T : Type} {c : Closures T} (cols : Columns c)
    (merge : List T → Gap → List (T × List ℤ)) (rows : List T) (gap : Gap) : Prop where
  /-- The spans are the maximal runs of rows no two neighbours of which are cut apart. -/
  spans : List.Forall₂ (IsSpan cols)
    (runs c (gap.seconds * Calendar.nanosPerSecond) rows) (merge rows gap)
  /-- The ids of all fragments are those of the rows, in order. -/
  ids : (merge rows gap).flatMap Prod.snd = rows.map c.idOf
  /-- The interactive runtime stays within the full one. -/
  interactive_le : (∀ row ∈ rows, cols.interactiveOf row ≤ cols.fullOf row) →
    ∀ span ∈ merge rows gap, cols.interactiveOf span.1 ≤ cols.fullOf span.1
  /-- Folding the spans changes nothing. -/
  idempotent : (merge ((merge rows gap).map Prod.fst) gap).map Prod.fst
    = (merge rows gap).map Prod.fst
  /-- A larger gap unites neighbouring spans and splits none. -/
  coarser : ∀ gap' : Gap, gap'.seconds < 2 ^ 53 → gap.seconds ≤ gap'.seconds →
    ∃ groups : List (List (List ℤ)), groups.flatten = (merge rows gap).map Prod.snd ∧
      groups.map List.flatten = (merge rows gap').map Prod.snd

theorem Gap.duration_eq {gap : Gap} (h : gap.seconds < 2 ^ 53) :
    gap.duration = gap.seconds * Calendar.nanosPerSecond := by
  rw [Gap.duration, asF64_eq h]

theorem Columns.localSplit {T : Type} {c : Closures T} (cols : Columns c) (rows : List T) {gap : Gap}
    (h : gap.seconds < 2 ^ 53) : LocalSplit cols (fold c) rows gap := by
  have h_spans := cols.fold_spans rows gap
  refine ⟨?_, ?_, ?_, cols.fold_fold rows gap, ?_⟩
  · rw [← Gap.duration_eq h]
    exact h_spans.imp fun _ _ h_made => h_made.isSpan cols
  · rw [List.flatMap_def, cols.fragments_eq, ← List.map_flatten, runs, List.flatten_splitBy]
  · intro h_rows span h_span
    -- the span is made of rows of the list
    obtain ⟨run, h_run, h_made⟩ := Splitting.exists_of_forall₂ h_spans h_span
    have h_isSpan := h_made.isSpan cols
    rw [h_isSpan.full, h_isSpan.interactive]
    refine saturatingSum_le fun row h_row => h_rows row ?_
    rw [← List.flatten_splitBy (fun newer older => !cutBetween c gap.duration newer older) rows]
    exact List.mem_flatten_of_mem h_run h_row
  · intro gap' h' h_le
    refine cols.fold_coarser rows ?_
    rw [Gap.duration_eq h, Gap.duration_eq h']
    exact mul_le_mul_of_nonneg_right (by exact_mod_cast h_le) (by decide)

/-- **The session fold is the split at local boundaries**, for both row types. -/
theorem mergeAdjacent_localSplit (gap : Gap) (h : gap.seconds < 2 ^ 53) :
    (∀ rows, LocalSplit recentColumns mergeAdjacentRecent rows gap) ∧
      ∀ rows, LocalSplit sessionColumns mergeAdjacentSession rows gap :=
  ⟨fun rows => recentColumns.localSplit rows h, fun rows => sessionColumns.localSplit rows h⟩

/-- The gap the daemon applies. -/
theorem mergeAdjacent_localSplit_default :
    (∀ rows, LocalSplit recentColumns mergeAdjacentRecent rows defaultMergeGap) ∧
      ∀ rows, LocalSplit sessionColumns mergeAdjacentSession rows defaultMergeGap :=
  mergeAdjacent_localSplit defaultMergeGap (by decide)

end SessionMerge

end Ludex
