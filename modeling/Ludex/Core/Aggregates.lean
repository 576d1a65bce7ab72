import Ludex.Core.RepoRun

/-!
# The aggregate statistics of an application

The statistics stored in a row of `applications` are those of its closed sessions. Three methods
maintain them in three ways: a close adds one session, a delete rebuilds them from the rows that
are left, and a merge adds up two rows. `aggregates_agree` says that they agree in every state of
every run of repository calls.

The invariant is `AggregatesAgree`, for each application row. Its step lemma
(`AggregatesAgree.step`) takes the five cases of `RowChange`. The longest runtime is read as a fold
from 0 (`longest_eq_foldr`), which is additive because the schema keeps runtimes non-negative. A
sum that would leave the range of the column fails its statement, so it never reaches a state.
-/

namespace Ludex

open SessionRepo ApplicationRepo

/-- The aggregates of an application row are those of its closed sessions. -/
structure AggregatesAgree (sessions : List Session) (a : Application) : Prop where
  runCount : a.statRunCount = (closedSessions sessions a.id).length
  totalFull :
    a.statTotalFull = ((closedSessions sessions a.id).map Session.fullRuntimeSeconds).sum
  totalInteractive :
    a.statTotalInteractive
      = ((closedSessions sessions a.id).map Session.interactiveRuntimeSeconds).sum
  longestFull :
    a.statLongestFull
      = ((closedSessions sessions a.id).map Session.fullRuntimeSeconds).max?.getD 0

section

variable {d d' : Database}

/-- The longest runtime of the closed sessions, as a fold. -/
theorem longest_eq_foldr (d : Database) (aid : ℤ) :
    ((closedSessions d.sessions aid).map Session.fullRuntimeSeconds).max?.getD 0
      = ((closedSessions d.sessions aid).map Session.fullRuntimeSeconds).foldr max 0 := by
  -- the schema keeps runtimes non-negative
  refine Sql.coalesce_max? fun x hx => ?_
  obtain ⟨s, hs, rfl⟩ := List.mem_map.mp hx
  obtain ⟨hs, -, -⟩ := mem_closedSessions.mp hs
  exact (d.checks.2 s hs).2.1

/-- A row that is kept with its closed sessions keeps its aggregates. -/
theorem AggregatesAgree.kept {rows rows' : List Session} {a : Application}
    (h : AggregatesAgree rows a) (h_rows : closedSessions rows' a.id = closedSessions rows a.id) :
    AggregatesAgree rows' a where
  runCount := by rw [h_rows, h.runCount]
  totalFull := by rw [h_rows, h.totalFull]
  totalInteractive := by rw [h_rows, h.totalInteractive]
  longestFull := by rw [h_rows, h.longestFull]

/-- A new row has no sessions and zero aggregates. -/
theorem AggregatesAgree.created {rows : List Session} {id : ℤ} {new : NewApplication}
    (h_none : closedSessions rows id = []) :
    AggregatesAgree rows (ApplicationRepo.newRow id new) where
  runCount := by
    change (0 : ℤ) = (closedSessions rows id).length
    rw [h_none]
    rfl
  totalFull := by
    change (0 : ℤ) = ((closedSessions rows id).map Session.fullRuntimeSeconds).sum
    rw [h_none]
    rfl
  totalInteractive := by
    change (0 : ℤ) = ((closedSessions rows id).map Session.interactiveRuntimeSeconds).sum
    rw [h_none]
    rfl
  longestFull := by
    change (0 : ℤ) = ((closedSessions rows id).map Session.fullRuntimeSeconds).max?.getD 0
    rw [h_none]
    rfl

/-- The incremental update of a close. -/
theorem AggregatesAgree.closed {a : Application} {s : Session} {snapshot : RuntimeSnapshot}
    {reason : ExitReason} (h : AggregatesAgree d.sessions a)
    (h_perm : (closedSessions d'.sessions a.id).Perm
      (closeRow snapshot reason s :: closedSessions d.sessions a.id)) :
    AggregatesAgree d'.sessions (rollup snapshot a) where
  runCount := by
    have h_len := h_perm.length_eq
    change a.statRunCount + 1 = ((closedSessions d'.sessions a.id).length : ℤ)
    rw [h_len, h.runCount, List.length_cons, Nat.cast_add, Nat.cast_one]
  totalFull := by
    have h_sum := (h_perm.map Session.fullRuntimeSeconds).sum_eq
    change a.statTotalFull + snapshot.fullRuntimeSeconds
      = ((closedSessions d'.sessions a.id).map Session.fullRuntimeSeconds).sum
    rw [h_sum, h.totalFull, List.map_cons, List.sum_cons, add_comm]
    rfl
  totalInteractive := by
    have h_sum := (h_perm.map Session.interactiveRuntimeSeconds).sum_eq
    change a.statTotalInteractive + snapshot.interactiveRuntimeSeconds
      = ((closedSessions d'.sessions a.id).map Session.interactiveRuntimeSeconds).sum
    rw [h_sum, h.totalInteractive, List.map_cons, List.sum_cons, add_comm]
    rfl
  longestFull := by
    -- as a fold the maximum does not depend on where the closed row stands
    have h_fold := Sql.foldr_max_perm (h_perm.map Session.fullRuntimeSeconds)
    have h_before := h.longestFull
    rw [longest_eq_foldr] at h_before
    change max a.statLongestFull snapshot.fullRuntimeSeconds
      = ((closedSessions d'.sessions a.id).map Session.fullRuntimeSeconds).max?.getD 0
    rw [longest_eq_foldr, h_fold, h_before, List.map_cons, List.foldr_cons, max_comm]
    rfl

/-- The rebuild of a delete. -/
theorem AggregatesAgree.recomputed (rows : List Session) (a : Application) :
    AggregatesAgree rows (recompute rows a) where
  runCount := rfl
  totalFull := Sql.coalesce_sumAgg _
  totalInteractive := Sql.coalesce_sumAgg _
  longestFull := rfl

/-- The addition of a merge. -/
theorem AggregatesAgree.merged {src dst : Application} (h_src : AggregatesAgree d.sessions src)
    (h_dst : AggregatesAgree d.sessions dst)
    (h_perm : (closedSessions d'.sessions dst.id).Perm
      (closedSessions d.sessions dst.id
        ++ (closedSessions d.sessions src.id).map fun s => { s with applicationId := dst.id })) :
    AggregatesAgree d'.sessions (applyMetadataFill src (mergeStats src dst)) := by
  have h_id : (applyMetadataFill src (mergeStats src dst)).id = dst.id := by simp
  refine ⟨?_, ?_, ?_, ?_⟩
  · -- a count, two sums and a maximum, each over the rows of both
    have h_len := h_perm.length_eq
    rw [List.length_append, List.length_map] at h_len
    rw [h_id, h_len, Nat.cast_add, ← h_dst.runCount, ← h_src.runCount]
    rfl
  · have h_sum := (column_merged (g := Session.fullRuntimeSeconds) (fun _ => rfl) h_perm).sum_eq
    rw [h_id, h_sum, List.sum_append, ← h_dst.totalFull, ← h_src.totalFull]
    rfl
  · have h_sum := (column_merged (g := Session.interactiveRuntimeSeconds) (fun _ => rfl) h_perm).sum_eq
    rw [h_id, h_sum, List.sum_append, ← h_dst.totalInteractive, ← h_src.totalInteractive]
    rfl
  · have h_fold := Sql.foldr_max_perm (column_merged (g := Session.fullRuntimeSeconds) (fun _ => rfl) h_perm)
    have h_dst_longest := h_dst.longestFull
    have h_src_longest := h_src.longestFull
    rw [longest_eq_foldr] at h_dst_longest h_src_longest
    rw [h_id, longest_eq_foldr, h_fold, Sql.foldr_max_append, ← h_dst_longest, ← h_src_longest]
    rfl

/-- **The step lemma.** From a state in which all aggregates agree, a call that closes only
sessions of the application it names leads to one in which they agree. -/
theorem AggregatesAgree.step {c : Call} (h : Step d c d') (h_owned : c.Owned d)
    (h_inv : ∀ a ∈ d.applications, AggregatesAgree d.sessions a) :
    ∀ a' ∈ d'.applications, AggregatesAgree d'.sessions a' := by
  intro a' ha'
  cases h.rowChange ha' with
  | kept ha h_rows => exact (h_inv a' ha).kept h_rows
  | created h_none => exact .created h_none
  | closed ha hs ho h_own h_perm => exact (h_inv _ ha).closed h_perm
  | charged ha hs ho h_other h_rows => exact absurd (h_owned _ hs rfl) h_other
  | uncharged ha hs ho h_own h_other h_perm =>
    exact absurd ((h_owned _ hs rfl).symm.trans h_own) h_other
  | recomputed ha h_touched h_rows => exact .recomputed d'.sessions _
  | merged h_src h_dst h_ne h_perm => exact (h_inv _ h_src).merged (h_inv _ h_dst) h_perm

end

/-- **The aggregate invariant.** In every state of every run of repository calls from the empty
database in which a close names the owner of the session, the statistics of every application row
are those of its closed sessions, and the interactive total does not exceed the full one. -/
theorem aggregates_agree {tr : List (Call × Database)} (h : Run.IsRun Step Database.empty tr)
    (h_owned : ∀ x ∈ Run.steps Database.empty tr, x.2.1.Owned x.1) :
    ∀ d ∈ Run.states Database.empty tr, ∀ a ∈ d.applications,
      AggregatesAgree d.sessions a ∧ a.statTotalInteractive ≤ a.statTotalFull := by
  have h_empty : ∀ a ∈ Database.empty.applications, AggregatesAgree Database.empty.sessions a :=
    fun a ha => absurd ha List.not_mem_nil
  have h_inv := h.invariant_of_steps
    (fun d : Database => ∀ a ∈ d.applications, AggregatesAgree d.sessions a) (fun d c => c.Owned d)
    (fun _ _ _ hstep hok hinv => AggregatesAgree.step hstep hok hinv) h_owned h_empty
  intro d hd a ha
  -- the bound on the interactive total is a constraint of the table
  obtain ⟨-, -, -, -, -, -, h_le, -⟩ := d.checks.1 a ha
  exact ⟨h_inv d hd a ha, h_le⟩

/-- The merged application ends with the one session that was not deleted. -/
theorem aggregates_agree_playMergeDelete :
    (∀ d ∈ Run.states Database.empty (Op.trace .empty playMergeDelete), ∀ a ∈ d.applications,
        AggregatesAgree d.sessions a ∧ a.statTotalInteractive ≤ a.statTotalFull) ∧
      (Run.final Database.empty (Op.trace .empty playMergeDelete)).applications.map
        (fun a => (a.launcherId, a.statRunCount, a.statTotalFull)) = [("10", 1, 30)] :=
  ⟨aggregates_agree (Op.isRun_trace _ _) (by decide +kernel), by decide +kernel⟩

end Ludex
