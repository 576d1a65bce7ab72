import Ludex.Core.RepoRun

/-!
# `last_played_at`

The column should be the latest `ended_at` of the closed sessions of the application
(`LastPlayedAgrees`). Its three writers do not agree on that: a close overwrites the column, a
delete takes the greatest text, and a merge takes the scalar `MAX`, which is NULL when one of the
two applications was never played. `LastPlayedOk` is the condition on a call, in the state it is
made in, under which the column stays right, and `lastPlayed_agrees_iff` says that a run keeps the
column right in all its states exactly when each of its calls meets the condition.

`merge_loses_last_played` is a run that does not: a played application is merged into one that was
never played.
-/

namespace Ludex

open SessionRepo ApplicationRepo

/-- The closing instants in a list of session rows. -/
def endedAts (sessions : List Session) : List OffsetDateTime := sessions.filterMap Session.endedAt

/-- `last_played_at` is NULL exactly when no session of the application is closed, and otherwise
the latest closing instant. -/
structure LastPlayedAgrees (sessions : List Session) (a : Application) : Prop where
  null_iff : a.lastPlayedAt = none ↔ closedSessions sessions a.id = []
  latest : ∀ t, a.lastPlayedAt = some t →
    IsGreatest {e | ∃ s ∈ closedSessions sessions a.id, s.endedAt = some e} t

/-- The rows a delete leaves of the closed sessions of an application. -/
def remaining (d : Database) (ids : List ℤ) (applicationId : ℤ) : List Session :=
  (closedSessions d.sessions applicationId).filter fun s => s.id ∉ ids

/-- The condition under which a call keeps `last_played_at` right.

* A close of an open session is not dated before the last played instant of its application. Were
  it to name another application than the owner, the column of that one would have to hold the
  closing instant already, and that of the owner an instant that is not before it.
* In each application a delete touches, the latest instant left is also the last one in the order
  of the texts.
* A merge joins two applications that were both played, or neither, and the order of the texts of
  their last played instants is chronological. -/
def LastPlayedOk (d : Database) : Call → Prop
  | .done (.closeAndRollup sessionId applicationId snapshot _) =>
    ∀ s ∈ d.sessions, s.id = sessionId → s.isOpen = true → ∀ a ∈ d.applications,
      if s.applicationId = a.id then
        if applicationId = a.id then ∀ t, a.lastPlayedAt = some t → t ≤ snapshot.at_
        else ∃ t, a.lastPlayedAt = some t ∧ snapshot.at_ ≤ t
      else applicationId = a.id → a.lastPlayedAt = some snapshot.at_
  | .done (.deleteSessionsAndRecompute ids) =>
    ∀ a ∈ d.applications, touched d ids a.id = true →
      ∀ t ∈ endedAts (remaining d ids a.id), (∀ e ∈ endedAts (remaining d ids a.id), e ≤ t) →
        ∀ e ∈ endedAts (remaining d ids a.id), OffsetDateTime.textLt t e = false
  | .done (.mergeInto srcId dstId) =>
    ∀ src ∈ d.applications, ∀ dst ∈ d.applications, src.id = srcId → dst.id = dstId →
      (src.lastPlayedAt = none ↔ dst.lastPlayedAt = none) ∧
        ∀ s t, src.lastPlayedAt = some s → dst.lastPlayedAt = some t →
          if OffsetDateTime.textLt t s then t ≤ s else s ≤ t
  | _ => True

/-! ### The latest of a list of instants -/

/-- `m` is the latest of the instants, NULL when there is none. -/
def IsLatest (es : List OffsetDateTime) : Option OffsetDateTime → Prop
  | none => es = []
  | some t => IsGreatest {e | e ∈ es} t

theorem mem_endedAts {sessions : List Session} {e : OffsetDateTime} :
    e ∈ endedAts sessions ↔ ∃ s ∈ sessions, s.endedAt = some e :=
  List.mem_filterMap

/-- Every closed session has a closing instant. -/
theorem endedAts_eq_nil_iff {sessions : List Session} {aid : ℤ} :
    endedAts (closedSessions sessions aid) = [] ↔ closedSessions sessions aid = [] := by
  refine ⟨?_, ?_⟩
  · intro h
    refine List.eq_nil_iff_forall_not_mem.mpr fun s hs => ?_
    obtain ⟨-, -, h_closed⟩ := mem_closedSessions.mp hs
    obtain ⟨e, he⟩ := Option.isSome_iff_exists.mp h_closed
    exact absurd (mem_endedAts.mpr ⟨s, hs, he⟩) (by rw [h]; exact List.not_mem_nil)
  · intro h
    rw [h]
    rfl

theorem lastPlayedAgrees_iff {sessions : List Session} {a : Application} :
    LastPlayedAgrees sessions a ↔ IsLatest (endedAts (closedSessions sessions a.id)) a.lastPlayedAt := by
  -- the two readings of the closed rows are one set
  have h_set : {e | ∃ s ∈ closedSessions sessions a.id, s.endedAt = some e}
      = {e | e ∈ endedAts (closedSessions sessions a.id)} := by
    ext e
    exact mem_endedAts.symm
  refine ⟨?_, ?_⟩
  · intro h
    cases h_last : a.lastPlayedAt with
    -- null means that there is no closed row
    | none => exact endedAts_eq_nil_iff.mpr (h.null_iff.mp h_last)
    | some t =>
      rw [IsLatest, ← h_set]
      exact h.latest t h_last
  · intro h
    refine ⟨⟨fun h_last => ?_, fun h_nil => ?_⟩, fun t h_last => ?_⟩
    · -- without a latest instant no row is closed
      rw [h_last] at h
      exact endedAts_eq_nil_iff.mp h
    · cases h_last : a.lastPlayedAt with
      | none => rfl
      | some t =>
        rw [h_last] at h
        have h_mem := h.1
        rw [← h_set, h_nil] at h_mem
        obtain ⟨s, hs, -⟩ := h_mem
        exact absurd hs List.not_mem_nil
    · rw [h_last, IsLatest, ← h_set] at h
      exact h

theorem IsLatest.perm {es es' : List OffsetDateTime} {m : Option OffsetDateTime}
    (h : es.Perm es') : IsLatest es m ↔ IsLatest es' m := by
  cases m with
  | none =>
    rw [IsLatest, IsLatest, ← List.length_eq_zero_iff, h.length_eq, List.length_eq_zero_iff]
  | some t =>
    have h_set : {e | e ∈ es} = {e | e ∈ es'} := by
      ext e
      exact h.mem_iff
    rw [IsLatest, IsLatest, h_set]

theorem exists_latest {es : List OffsetDateTime} (h : es ≠ []) : ∃ t ∈ es, ∀ e ∈ es, e ≤ t := by
  cases h_max : Sql.maxAgg (fun a b : OffsetDateTime => a < b) es with
  | none => exact absurd ((Sql.maxAgg_eq_none_iff _).mp h_max) h
  | some t =>
    have h_top := Sql.not_lt_maxAgg _ (fun a b hab => by simpa using le_of_lt (by simpa using hab))
      (fun a b c hab hbc => by
        rw [decide_eq_false_iff_not, not_lt] at hab hbc ⊢
        exact le_trans hbc hab) h_max
    refine ⟨t, Sql.mem_of_maxAgg _ h_max, fun e he => ?_⟩
    simpa using h_top e he

/-- Overwriting with `t` is right when no earlier instant was later. -/
theorem IsLatest.cons_iff {es : List OffsetDateTime} {m : Option OffsetDateTime}
    (h : IsLatest es m) (t : OffsetDateTime) :
    IsLatest (t :: es) (some t) ↔ ∀ u, m = some u → u ≤ t := by
  refine ⟨?_, ?_⟩
  · rintro ⟨-, h_top⟩ u rfl
    exact h_top (List.mem_cons_of_mem _ h.1)
  · intro h_le
    refine ⟨List.mem_cons_self, fun e he => ?_⟩
    rcases List.mem_cons.mp he with rfl | he
    · exact le_refl _
    -- the other instants are not after the one that was the latest
    cases m with
    | none => exact absurd (h ▸ he) List.not_mem_nil
    | some u => exact le_trans (h.2 he) (h_le u rfl)

/-- Leaving a column alone while `t` is added is right when it holds an instant that is not before
`t`. -/
theorem IsLatest.cons_same_iff {es : List OffsetDateTime} {m : Option OffsetDateTime}
    (h : IsLatest es m) (t : OffsetDateTime) : IsLatest (t :: es) m ↔ ∃ u, m = some u ∧ t ≤ u := by
  cases m with
  | none => simp [IsLatest]
  | some u =>
    -- the latest of a list with one more: the new instant is not later
    refine ⟨?_, ?_⟩
    · rintro ⟨-, h_top⟩
      exact ⟨u, rfl, h_top List.mem_cons_self⟩
    · rintro ⟨v, h_v, h_le⟩
      obtain rfl := Option.some.inj h_v
      refine ⟨List.mem_cons_of_mem _ h.1, fun e he => ?_⟩
      rcases List.mem_cons.mp he with rfl | he
      · exact h_le
      · exact h.2 he

/-- There is only one latest instant. -/
theorem IsLatest.unique {es : List OffsetDateTime} {m m' : Option OffsetDateTime}
    (h : IsLatest es m) (h' : IsLatest es m') : m = m' := by
  -- a latest instant is unique, and null is one only of the empty list
  cases m with
  | none =>
    obtain rfl : es = [] := h
    cases m' with
    | none => rfl
    | some t' => exact absurd h'.1 List.not_mem_nil
  | some t =>
    cases m' with
    | none =>
      obtain rfl : es = [] := h'
      exact absurd h.1 List.not_mem_nil
    | some t' => rw [IsGreatest.unique h h']

/-- The greatest text is right when the latest instant is also last in the order of the texts. -/
theorem isLatest_maxAgg_iff (es : List OffsetDateTime) :
    IsLatest es (Sql.maxAgg OffsetDateTime.textLt es) ↔
      ∀ t ∈ es, (∀ e ∈ es, e ≤ t) → ∀ e ∈ es, OffsetDateTime.textLt t e = false := by
  cases h_max : Sql.maxAgg OffsetDateTime.textLt es with
  | none =>
    obtain rfl := (Sql.maxAgg_eq_none_iff _).mp h_max
    simp [IsLatest]
  | some m =>
    have h_mem := Sql.mem_of_maxAgg _ h_max
    have h_text := Sql.not_lt_maxAgg _ OffsetDateTime.textLt_asymm
      OffsetDateTime.textLt_trans_false h_max
    refine ⟨?_, ?_⟩
    · rintro ⟨-, h_top⟩ t ht h_latest
      -- the greatest text is the latest instant, and there is only one
      rw [le_antisymm (h_top ht) (h_latest m h_mem)]
      exact h_text
    · intro h_ok
      obtain ⟨t, ht, h_latest⟩ := exists_latest (List.ne_nil_of_mem h_mem)
      -- both are last in the order of the texts
      have h_eq : m = t :=
        OffsetDateTime.eq_of_textLt_false (h_text t ht) (h_ok t ht h_latest m h_mem)
      rw [h_eq]
      exact ⟨ht, fun e he => h_latest e he⟩

theorem isLatest_append_iff {es es' : List OffsetDateTime} {s t x : OffsetDateTime}
    (h : IsLatest es (some s)) (h' : IsLatest es' (some t)) (hx : x = t ∨ x = s) :
    IsLatest (es' ++ es) (some x) ↔ t ≤ x ∧ s ≤ x := by
  refine ⟨?_, ?_⟩
  · rintro ⟨-, h_top⟩
    exact ⟨h_top (List.mem_append_left _ h'.1), h_top (List.mem_append_right _ h.1)⟩
  · -- the later of the two is of either list and above both
    rintro ⟨h_t, h_s⟩
    refine ⟨?_, fun e he => ?_⟩
    · rcases hx with rfl | rfl
      · exact List.mem_append_left _ h'.1
      · exact List.mem_append_right _ h.1
    · rcases List.mem_append.mp he with he | he
      · exact le_trans (h'.2 he) h_t
      · exact le_trans (h.2 he) h_s

/-- The scalar `MAX` of two columns is right when both or neither are NULL and the texts of the two
are ordered as the instants are. -/
theorem isLatest_scalarMax_iff {es es' : List OffsetDateTime} {m m' : Option OffsetDateTime}
    (h : IsLatest es m) (h' : IsLatest es' m') :
    IsLatest (es' ++ es) (Sql.scalarMax OffsetDateTime.textLt m' m) ↔
      (m = none ↔ m' = none) ∧
        ∀ s t, m = some s → m' = some t → if OffsetDateTime.textLt t s then t ≤ s else s ≤ t := by
  cases m with
  | none =>
    obtain rfl : es = [] := h
    cases m' with
    | none =>
      obtain rfl : es' = [] := h'
      simp [IsLatest]
    | some t =>
      -- the scalar `MAX` is NULL although the destination was played
      have h_ne : es' ≠ [] := List.ne_nil_of_mem h'.1
      simpa [IsLatest] using h_ne
  | some s =>
    cases m' with
    | none =>
      -- and here although the source was
      have h_ne : es ≠ [] := List.ne_nil_of_mem h.1
      simp [IsLatest, h_ne]
    | some t =>
      rw [Sql.scalarMax_some, Sql.maxBy]
      cases h_text : OffsetDateTime.textLt t s with
      | true =>
        rw [if_pos rfl, isLatest_append_iff h h' (Or.inr rfl)]
        simp [h_text]
      | false =>
        rw [if_neg (by simp), isLatest_append_iff h h' (Or.inl rfl)]
        simp [h_text]

/-! ### One step -/

section Step

variable {d d' : Database}

theorem LastPlayedAgrees.kept {rows rows' : List Session} {a : Application}
    (h : LastPlayedAgrees rows a) (h_rows : closedSessions rows' a.id = closedSessions rows a.id) :
    LastPlayedAgrees rows' a := by
  rw [lastPlayedAgrees_iff] at h ⊢
  rw [h_rows]
  exact h

theorem LastPlayedAgrees.created {rows : List Session} {id : ℤ} {new : NewApplication}
    (h_none : closedSessions rows id = []) :
    LastPlayedAgrees rows (ApplicationRepo.newRow id new) := by
  rw [lastPlayedAgrees_iff]
  change endedAts (closedSessions rows id) = []
  rw [h_none]
  rfl

/-- A close adds its instant to those of the closed sessions. -/
theorem endedAts_close {aid : ℤ} {s : Session} {snapshot : RuntimeSnapshot} {reason : ExitReason}
    (h_perm : (closedSessions d'.sessions aid).Perm
      (closeRow snapshot reason s :: closedSessions d.sessions aid)) :
    (endedAts (closedSessions d'.sessions aid)).Perm
      (snapshot.at_ :: endedAts (closedSessions d.sessions aid)) :=
  h_perm.filterMap Session.endedAt

theorem LastPlayedAgrees.closed_iff {a : Application} {s : Session} {snapshot : RuntimeSnapshot}
    {reason : ExitReason} (h : LastPlayedAgrees d.sessions a)
    (h_perm : (closedSessions d'.sessions a.id).Perm
      (closeRow snapshot reason s :: closedSessions d.sessions a.id)) :
    LastPlayedAgrees d'.sessions (rollup snapshot a) ↔
      ∀ t, a.lastPlayedAt = some t → t ≤ snapshot.at_ := by
  rw [lastPlayedAgrees_iff] at h ⊢
  change IsLatest (endedAts (closedSessions d'.sessions a.id)) (some snapshot.at_) ↔ _
  rw [IsLatest.perm (endedAts_close h_perm), h.cons_iff]

theorem LastPlayedAgrees.charged_iff {rows' : List Session} {a : Application}
    {snapshot : RuntimeSnapshot} (h : LastPlayedAgrees d.sessions a)
    (h_rows : closedSessions rows' a.id = closedSessions d.sessions a.id) :
    LastPlayedAgrees rows' (rollup snapshot a) ↔ a.lastPlayedAt = some snapshot.at_ := by
  rw [lastPlayedAgrees_iff] at h ⊢
  change IsLatest (endedAts (closedSessions rows' a.id)) (some snapshot.at_) ↔ _
  rw [h_rows]
  exact ⟨h.unique, fun h_eq => h_eq ▸ h⟩

theorem LastPlayedAgrees.uncharged_iff {a : Application} {s : Session} {snapshot : RuntimeSnapshot}
    {reason : ExitReason} (h : LastPlayedAgrees d.sessions a)
    (h_perm : (closedSessions d'.sessions a.id).Perm
      (closeRow snapshot reason s :: closedSessions d.sessions a.id)) :
    LastPlayedAgrees d'.sessions a ↔ ∃ t, a.lastPlayedAt = some t ∧ snapshot.at_ ≤ t := by
  rw [lastPlayedAgrees_iff] at h ⊢
  rw [IsLatest.perm (endedAts_close h_perm), h.cons_same_iff]

theorem LastPlayedAgrees.recomputed_iff {ids : List ℤ} {a : Application}
    (h_rows : closedSessions d'.sessions a.id = remaining d ids a.id) :
    LastPlayedAgrees d'.sessions (recompute d'.sessions a) ↔
      ∀ t ∈ endedAts (remaining d ids a.id), (∀ e ∈ endedAts (remaining d ids a.id), e ≤ t) →
        ∀ e ∈ endedAts (remaining d ids a.id), OffsetDateTime.textLt t e = false := by
  rw [lastPlayedAgrees_iff, ← h_rows, ← isLatest_maxAgg_iff]
  rfl

theorem LastPlayedAgrees.merged_iff {src dst : Application}
    (h_src : LastPlayedAgrees d.sessions src) (h_dst : LastPlayedAgrees d.sessions dst)
    (h_perm : (closedSessions d'.sessions dst.id).Perm
      (closedSessions d.sessions dst.id
        ++ (closedSessions d.sessions src.id).map fun s => { s with applicationId := dst.id })) :
    LastPlayedAgrees d'.sessions (applyMetadataFill src (mergeStats src dst)) ↔
      (src.lastPlayedAt = none ↔ dst.lastPlayedAt = none) ∧
        ∀ s t, src.lastPlayedAt = some s → dst.lastPlayedAt = some t →
          if OffsetDateTime.textLt t s then t ≤ s else s ≤ t := by
  rw [lastPlayedAgrees_iff] at h_src h_dst ⊢
  -- the rows of the merge are those of both
  have h_ended : (endedAts (closedSessions d'.sessions dst.id)).Perm
      (endedAts (closedSessions d.sessions dst.id)
        ++ endedAts (closedSessions d.sessions src.id)) := by
    have h_map := h_perm.filterMap Session.endedAt
    rw [List.filterMap_append, List.filterMap_map] at h_map
    exact h_map
  -- and the statistic is the scalar maximum of both
  have h_last : (applyMetadataFill src (mergeStats src dst)).lastPlayedAt
      = Sql.scalarMax OffsetDateTime.textLt dst.lastPlayedAt src.lastPlayedAt := by
    simp only [applyMetadataFill, mergeStats]
  rw [applyMetadataFill_id, mergeStats_id, h_last, IsLatest.perm h_ended,
    isLatest_scalarMax_iff h_src h_dst]

/-- A call that leaves the column right meets the condition: it is read off the row of the
application that the call writes. -/
theorem lastPlayedOk_of_agrees {c : Call} (h : Step d c d')
    (h_inv : ∀ a ∈ d.applications, LastPlayedAgrees d.sessions a)
    (h_after : ∀ a' ∈ d'.applications, LastPlayedAgrees d'.sessions a') : LastPlayedOk d c := by
  cases h with
  | failed => trivial
  | @done _ op h_run =>
    cases op with
    | create new => trivial
    | begin aid startedAt => trivial
    | heartbeat sid snapshot => trivial
    | closeAndRollup sid aid snapshot reason =>
      rintro s hs rfl ho a ha
      obtain ⟨h_apps, h_sessions⟩ := closeAndRollup_tables hs ho h_run
      have h_row : (if a.id = aid then rollup snapshot a else a) ∈ d'.applications := by
        rw [h_apps]
        exact Sql.mem_updateWhere.mpr ⟨a, ha, by simp⟩
      have h_agrees := h_after _ h_row
      -- the application has one closed session more, or is charged for another's, or both
      split
      next h_owner =>
        have h_perm := closedSessions_close_owner hs ho snapshot reason
        rw [← h_sessions, h_owner] at h_perm
        split
        next h_id =>
          rw [if_pos h_id.symm] at h_agrees
          exact ((h_inv a ha).closed_iff h_perm).mp h_agrees
        next h_id =>
          rw [if_neg (Ne.symm h_id)] at h_agrees
          exact ((h_inv a ha).uncharged_iff h_perm).mp h_agrees
      next h_other =>
        intro h_id
        rw [if_pos h_id.symm, h_sessions] at h_agrees
        exact ((h_inv a ha).charged_iff (closedSessions_close_other hs h_other)).mp h_agrees
    | deleteSessionsAndRecompute ids =>
      intro a ha h_touched
      obtain ⟨⟨deleted, d₁⟩, h_ok, rfl⟩ := Except.map_eq_ok.mp h_run
      have h_row : recompute d₁.sessions a ∈ d₁.applications := by
        rw [applications_delete h_ok]
        exact Sql.mem_updateWhere.mpr ⟨a, ha, if_pos h_touched⟩
      exact (LastPlayedAgrees.recomputed_iff (closedSessions_delete h_ok a.id)).mp
        (h_after _ h_row)
    | mergeInto srcId dstId =>
      rintro src h_src dst h_dst rfl rfl
      obtain ⟨h_row, h_perm⟩ := mergeInto_row h_src h_dst h_run
      exact ((h_inv src h_src).merged_iff (h_inv dst h_dst) h_perm).mp (h_after _ h_row)

/-- A call that meets the condition leaves the column right: each row by where it comes from. -/
theorem agrees_of_lastPlayedOk {c : Call} (h : Step d c d')
    (h_inv : ∀ a ∈ d.applications, LastPlayedAgrees d.sessions a) (h_ok : LastPlayedOk d c)
    {a' : Application} (ha' : a' ∈ d'.applications) : LastPlayedAgrees d'.sessions a' := by
  -- one case for each way a row can come about; the condition is what that way needs
  cases h.rowChange ha' with
  | kept ha h_rows => exact (h_inv a' ha).kept h_rows
  | created h_none => exact .created h_none
  | closed ha hs ho h_own h_perm =>
    have h_cond := h_ok _ hs rfl ho _ ha
    rw [if_pos h_own, if_pos rfl] at h_cond
    exact ((h_inv _ ha).closed_iff h_perm).mpr h_cond
  | charged ha hs ho h_other h_rows =>
    have h_cond := h_ok _ hs rfl ho _ ha
    rw [if_neg h_other] at h_cond
    exact ((h_inv _ ha).charged_iff h_rows).mpr (h_cond rfl)
  | uncharged ha hs ho h_own h_other h_perm =>
    have h_cond := h_ok _ hs rfl ho _ ha
    rw [if_pos h_own, if_neg h_other] at h_cond
    exact ((h_inv _ ha).uncharged_iff h_perm).mpr h_cond
  | recomputed ha h_touched h_rows =>
    exact (LastPlayedAgrees.recomputed_iff h_rows).mpr (h_ok _ ha h_touched)
  | merged h_src h_dst h_ne h_perm =>
    exact ((h_inv _ h_src).merged_iff (h_inv _ h_dst) h_perm).mpr
      (h_ok _ h_src _ h_dst rfl rfl)

/-- **The step lemma.** From a state in which the column is right, a call leads to one in which it
is right if and only if the call meets `LastPlayedOk`. -/
theorem lastPlayed_step {c : Call} (h : Step d c d')
    (h_inv : ∀ a ∈ d.applications, LastPlayedAgrees d.sessions a) :
    (∀ a' ∈ d'.applications, LastPlayedAgrees d'.sessions a') ↔ LastPlayedOk d c :=
  ⟨lastPlayedOk_of_agrees h h_inv, fun h_ok _ ha' => agrees_of_lastPlayedOk h h_inv h_ok ha'⟩

end Step

/-! ### Runs -/

/-- **When `last_played_at` is right.** In a run of repository calls from the empty database, the
column is right in every state if and only if every call meets `LastPlayedOk` in the state it is
made in. -/
theorem lastPlayed_agrees_iff {tr : List (Call × Database)}
    (h : Run.IsRun Step Database.empty tr) :
    (∀ d ∈ Run.states Database.empty tr, ∀ a ∈ d.applications, LastPlayedAgrees d.sessions a) ↔
      ∀ x ∈ Run.steps Database.empty tr, LastPlayedOk x.1 x.2.1 := by
  refine h.states_iff (fun _ => True)
    (fun d : Database => ∀ a ∈ d.applications, LastPlayedAgrees d.sessions a) LastPlayedOk
    (fun _ _ _ _ _ => trivial) ?_ trivial ?_
  · intro d c d' h_step _ h_inv
    exact lastPlayed_step h_step h_inv
  · intro a ha
    exact absurd ha List.not_mem_nil

theorem lastPlayed_agrees_iff_playMergeDelete :
    (∀ d ∈ Run.states Database.empty (Op.trace .empty playMergeDelete), ∀ a ∈ d.applications,
        LastPlayedAgrees d.sessions a) ↔
      ∀ x ∈ Run.steps Database.empty (Op.trace .empty playMergeDelete), LastPlayedOk x.1 x.2.1 :=
  lastPlayed_agrees_iff (Op.isRun_trace _ _)

/-- A played application is merged into one that was never played. -/
def mergeIntoUnplayed : List Op :=
  [.create (newSteam "10" (.firstDay 0)), .create (newSteam "20" (.firstDay 1)),
    .begin 1 (.firstDay 10), .closeAndRollup 1 1 ⟨90, 70, .firstDay 100⟩ .terminated,
    .mergeInto 1 2]

/-- The application ends with a closed session and no last played instant. -/
theorem merge_loses_last_played :
    ¬ ∀ tr, Run.IsRun Step Database.empty tr → ∀ d ∈ Run.states Database.empty tr,
      ∀ a ∈ d.applications, LastPlayedAgrees d.sessions a := by
  intro h
  have h_bad : ∃ a ∈ (Run.final Database.empty (Op.trace .empty mergeIntoUnplayed)).applications,
      ¬ (a.lastPlayedAt = none ↔ closedSessions
        (Run.final Database.empty (Op.trace .empty mergeIntoUnplayed)).sessions a.id = []) := by
    decide +kernel
  obtain ⟨a, ha, h_null⟩ := h_bad
  exact h_null (h _ (Op.isRun_trace _ _) _ (Run.final_mem_states _ _) a ha).null_iff

end Ludex
