import Mathlib.Data.List.Find
import Ludex.Core.OpenRows
import Ludex.Daemon.SessionMoves

/-!
# Orphan recovery

`recoverOrphans` closes the sessions a dead run has left open, one transaction each. It can be
interrupted between any two of them, by the death of the process or by an error, and is then run
again from the start.

`recoverSome` is the database after some of the orphans have been recovered. Recovering one more of
them leads to another such database (`recoverSome_close`), so that is what an interrupted recovery
leaves, however often it was started (`PartlyRecovered`). A recovery that completes has recovered
all of them, and none of them twice (`ExactlyOnce`).
-/

namespace Ludex

open Transact SessionManager SessionRepo

/-! ### Recovering some of the orphans -/

/-- The runtime and the time of the last heartbeat of a session. -/
def lastSnapshot (s : Session) : RuntimeSnapshot :=
  ⟨s.fullRuntimeSeconds, s.interactiveRuntimeSeconds, s.heartbeatAt⟩

/-- A session row, recovered if it is an orphan and among those that are done. -/
def recoverRow (done : Session → Bool) (s : Session) : Session :=
  if s.isOpen && done s then closeRow (lastSnapshot s) .recovered s else s

/-- An application row, with its recovered orphan added to the aggregates. -/
def recoverApplication (done : Session → Bool) (sessions : List Session) (a : Application) :
    Application :=
  match sessions.find? fun s => s.isOpen && done s && s.applicationId = a.id with
  | some s => rollup (lastSnapshot s) a
  | none => a

/-- The tables with some of the orphans recovered. -/
def recoverSome (done : Session → Bool) (t : Tables) : Tables :=
  { t with
    applications := t.applications.map (recoverApplication done t.sessions)
    sessions := t.sessions.map (recoverRow done) }

theorem recoverRow_of_done {done : Session → Bool} {s : Session} (h_open : s.isOpen = true)
    (h_done : done s = true) : recoverRow done s = closeRow (lastSnapshot s) .recovered s := by
  unfold recoverRow
  rw [h_open, h_done]
  rfl

theorem recoverRow_of_closed {done : Session → Bool} {s : Session} (h_open : s.isOpen = false) :
    recoverRow done s = s := by
  unfold recoverRow
  rw [h_open, Bool.false_and]
  rfl

theorem recoverRow_of_not_done {done : Session → Bool} {s : Session} (h_done : done s = false) :
    recoverRow done s = s := by
  unfold recoverRow
  rw [h_done, Bool.and_false]
  rfl

@[simp] theorem recoverApplication_id (done : Session → Bool) (sessions : List Session)
    (a : Application) : (recoverApplication done sessions a).id = a.id := by
  unfold recoverApplication
  split
  · rfl
  · rfl

/-- Only the orphans matter. -/
theorem recoverSome_congr {done done' : Session → Bool} {t : Tables}
    (h : ∀ s ∈ t.sessions, s.isOpen = true → done s = done' s) :
    recoverSome done t = recoverSome done' t := by
  have h_done : ∀ s ∈ t.sessions, (s.isOpen && done s) = (s.isOpen && done' s) := by
    intro s hs
    cases h_open : s.isOpen with
    | true => rw [h s hs h_open]
    | false => rfl
  have h_rows : t.sessions.map (recoverRow done) = t.sessions.map (recoverRow done') := by
    refine List.map_congr_left fun s hs => ?_
    unfold recoverRow
    rw [h_done s hs]
  have h_apps : t.applications.map (recoverApplication done t.sessions) =
      t.applications.map (recoverApplication done' t.sessions) := by
    refine List.map_congr_left fun a _ => ?_
    unfold recoverApplication
    rw [List.find?_congr fun s hs => by rw [h_done s hs]]
  unfold recoverSome
  rw [h_rows, h_apps]

/-- Before the recovery. -/
theorem recoverSome_none (t : Tables) : recoverSome (fun _ => false) t = t := by
  have h_rows : t.sessions.map (recoverRow fun _ => false) = t.sessions := by
    refine (List.map_congr_left fun s _ => ?_).trans (List.map_id _)
    exact recoverRow_of_not_done rfl
  have h_apps : t.applications.map (recoverApplication (fun _ => false) t.sessions) =
      t.applications := by
    refine (List.map_congr_left fun a _ => ?_).trans (List.map_id _)
    have h_find : (t.sessions.find? fun s => s.isOpen && false && s.applicationId = a.id) = none :=
      List.find?_eq_none.mpr fun s _ => by rw [Bool.and_false]; exact Bool.false_ne_true
    unfold recoverApplication
    rw [h_find]
    rfl
  unfold recoverSome
  rw [h_rows, h_apps]

section Close

variable {d₀ d d' : Database} {done : Session → Bool} {o : Session}

/-- A row that is still open has not been touched. -/
theorem mem_of_recoverSome (h : d.toTables = recoverSome done d₀.toTables) (ho : o ∈ d.sessions)
    (h_open : o.isOpen = true) : o ∈ d₀.sessions ∧ done o = false := by
  have h_sessions : d.sessions = d₀.sessions.map (recoverRow done) := by rw [h]; rfl
  rw [h_sessions] at ho
  obtain ⟨s, hs, rfl⟩ := List.mem_map.mp ho
  cases h_s : s.isOpen with
  | false =>
    rw [recoverRow_of_closed h_s, h_s] at h_open
    exact nomatch h_open
  | true =>
    cases h_done : done s with
    | true =>
      -- its recovery would have closed it
      rw [recoverRow_of_done h_s h_done] at h_open
      exact nomatch h_open
    | false =>
      rw [recoverRow_of_not_done h_done]
      exact ⟨hs, h_done⟩

theorem recoverRow_close (hs : o ∈ d₀.sessions) {s : Session}
    (h_mem : s ∈ d₀.sessions) :
    (if isOpenRow o.id (recoverRow done s) = true
      then closeRow (lastSnapshot o) .recovered (recoverRow done s) else recoverRow done s) =
      recoverRow (fun s => done s || s.id = o.id) s := by
  cases h_open : s.isOpen with
  | false =>
    rw [recoverRow_of_closed h_open, recoverRow_of_closed h_open, isOpenRow, h_open, Bool.and_false]
    rfl
  | true =>
    cases h_s : done s with
    | true =>
      -- already recovered, hence no longer open
      have h_closed : isOpenRow o.id (closeRow (lastSnapshot s) .recovered s) = false :=
        Bool.and_false _
      rw [recoverRow_of_done h_open h_s, recoverRow_of_done h_open (by rw [h_s]; rfl), h_closed]
      rfl
    | false =>
      rw [recoverRow_of_not_done h_s, isOpenRow, h_open, Bool.and_true]
      by_cases h_id : s.id = o.id
      · -- the orphan itself
        obtain rfl := d₀.session_unique h_mem hs h_id
        rw [recoverRow_of_done h_open (by rw [decide_eq_true rfl, Bool.or_true]),
          if_pos (decide_eq_true rfl)]
      · rw [recoverRow_of_not_done (by rw [h_s, decide_eq_false h_id]; rfl),
          if_neg (by rw [decide_eq_true_eq]; exact h_id)]

theorem recoverApplication_close (hs : o ∈ d₀.sessions) (h_open : o.isOpen = true)
    (h_done : done o = false) (a : Application) :
    (if decide ((recoverApplication done d₀.sessions a).id = o.applicationId) = true
      then rollup (lastSnapshot o) (recoverApplication done d₀.sessions a)
      else recoverApplication done d₀.sessions a) =
      recoverApplication (fun s => done s || s.id = o.id) d₀.sessions a := by
  rw [recoverApplication_id]
  by_cases h_id : a.id = o.applicationId
  · -- its only open session is `o`, which was not done
    have h_before : (d₀.sessions.find? fun s => s.isOpen && done s && s.applicationId = a.id) =
        none := by
      apply List.find?_eq_none.mpr
      intro s h_mem h_s
      rw [Bool.and_eq_true, Bool.and_eq_true, decide_eq_true_eq] at h_s
      obtain rfl := d₀.open_unique h_mem hs h_s.1.1 h_open (h_s.2.trans h_id)
      exact Bool.false_ne_true (h_done.symm.trans h_s.1.2)
    -- and is the one that is done now
    have h_after : (d₀.sessions.find? fun s =>
        s.isOpen && (done s || s.id = o.id) && s.applicationId = a.id) = some o := by
      cases h_find : d₀.sessions.find? fun s =>
          s.isOpen && (done s || s.id = o.id) && s.applicationId = a.id with
      | none =>
        have h_none := List.find?_eq_none.mp h_find o hs
        exact absurd (by simp [h_open, h_id]) h_none
      | some s =>
        have h_s := List.find?_some h_find
        rw [Bool.and_eq_true, Bool.and_eq_true, decide_eq_true_eq] at h_s
        rw [d₀.open_unique (List.mem_of_find?_eq_some h_find) hs h_s.1.1 h_open
          (h_s.2.trans h_id)]
    unfold recoverApplication
    rw [h_before, h_after, if_pos (decide_eq_true h_id)]
  · -- the orphan is not a session of this application
    rw [if_neg (by rw [decide_eq_true_eq]; exact h_id)]
    unfold recoverApplication
    rw [List.find?_congr fun s h_mem => ?_]
    by_cases h_s : s.id = o.id
    · obtain rfl := d₀.session_unique h_mem hs h_s
      rw [decide_eq_false_iff_not.mpr (Ne.symm h_id), Bool.and_false, Bool.and_false]
    · simp only [h_s, decide_false, Bool.or_false]

/-- **One more orphan.** Closing an orphan that is left recovers it, once. -/
theorem recoverSome_close (h : d.toTables = recoverSome done d₀.toTables) (ho : o ∈ d.sessions)
    (h_open : o.isOpen = true)
    (h_close : closeAndRollup d o.id o.applicationId (lastSnapshot o) .recovered = .ok d') :
    d'.toTables = recoverSome (fun s => done s || s.id = o.id) d₀.toTables := by
  obtain ⟨hs, h_done⟩ := mem_of_recoverSome h ho h_open
  rcases closeAndRollup_ok h_close with ⟨h_none, -⟩ | ⟨-, h_tables⟩
  · -- the guard matches: the orphan is still open
    have h_o := h_none o ho
    rw [isOpenRow, h_open, Bool.and_true, decide_eq_false_iff_not] at h_o
    exact absurd rfl h_o
  have h_rows : Sql.updateWhere (isOpenRow o.id) (closeRow (lastSnapshot o) .recovered)
      (d₀.sessions.map (recoverRow done)) =
      d₀.sessions.map (recoverRow fun s => done s || s.id = o.id) := by
    rw [Sql.updateWhere, List.map_map]
    exact List.map_congr_left fun s h_mem => recoverRow_close hs h_mem
  have h_apps : Sql.updateWhere (fun a => a.id = o.applicationId) (rollup (lastSnapshot o))
      (d₀.applications.map (recoverApplication done d₀.sessions)) =
      d₀.applications.map (recoverApplication (fun s => done s || s.id = o.id) d₀.sessions) := by
    rw [Sql.updateWhere, List.map_map]
    exact List.map_congr_left fun a _ => recoverApplication_close hs h_open h_done a
  rw [h_tables, h]
  unfold recoverSome
  rw [h_rows, h_apps]

end Close

/-! ### The recovery loop -/

/-- Some of the orphans have been recovered, and nothing else has changed. -/
def PartlyRecovered (d₀ d : Database) : Prop := ∃ done, d.toTables = recoverSome done d₀.toTables

/-- **All orphans have been recovered, each of them once.** A session row that was open is closed at
its last heartbeat, with the runtimes of that heartbeat, and every other row is as it was. The
aggregates of an application have its orphan added to them. -/
structure ExactlyOnce (d₀ d : Database) : Prop where
  sessions : d.sessions =
    d₀.sessions.map fun s => if s.isOpen then closeRow (lastSnapshot s) .recovered s else s
  applications : d.applications =
    d₀.applications.map fun a =>
      match d₀.openSessions.find? fun s => s.applicationId = a.id with
      | some s => rollup (lastSnapshot s) a
      | none => a
  none_open : d.openSessions = []

theorem PartlyRecovered.refl (d : Database) : PartlyRecovered d d :=
  ⟨fun _ => false, (recoverSome_none d.toTables).symm⟩

/-- A recovery of what a recovery has left is a recovery of the whole. -/
theorem PartlyRecovered.close {d₀ d d' : Database} {o : Session} (h : PartlyRecovered d₀ d)
    (ho : o ∈ d.sessions) (h_open : o.isOpen = true)
    (h_close : closeAndRollup d o.id o.applicationId (lastSnapshot o) .recovered = .ok d') :
    PartlyRecovered d₀ d' := by
  obtain ⟨done, h_done⟩ := h
  exact ⟨_, recoverSome_close h_done ho h_open h_close⟩

/-- A partly recovered database without open rows is recovered. -/
theorem PartlyRecovered.exactlyOnce {d₀ d : Database} (h : PartlyRecovered d₀ d)
    (h_none : d.openSessions = []) : ExactlyOnce d₀ d := by
  obtain ⟨done, h_done⟩ := h
  have h_all : d.toTables = recoverSome (fun _ => true) d₀.toTables := by
    rw [h_done]
    apply recoverSome_congr
    intro s hs h_open
    -- an orphan that is not done would still be open
    by_contra h_s
    have h_row : recoverRow done s = s := recoverRow_of_not_done (Bool.eq_false_iff.mpr h_s)
    have h_mem : s ∈ d.sessions := by
      rw [show d.sessions = d₀.sessions.map (recoverRow done) by rw [h_done]; rfl, ← h_row]
      exact List.mem_map_of_mem hs
    have h_left : s ∈ d.openSessions := List.mem_filter.mpr ⟨h_mem, h_open⟩
    rw [h_none] at h_left
    exact absurd h_left List.not_mem_nil
  have h_sessions : d.sessions = d₀.sessions.map (recoverRow fun _ => true) := by
    rw [h_all]
    rfl
  have h_applications : d.applications =
      d₀.applications.map (recoverApplication (fun _ => true) d₀.sessions) := by
    rw [h_all]
    rfl
  refine ⟨?_, ?_, h_none⟩
  · rw [h_sessions]
    refine List.map_congr_left fun s _ => ?_
    unfold recoverRow
    rw [Bool.and_true]
  · rw [h_applications]
    refine List.map_congr_left fun a _ => ?_
    unfold recoverApplication Tables.openSessions
    rw [List.find?_filter]
    simp only [Bool.and_true, Bool.decide_and, Bool.decide_eq_true]

/-- An orphan other than the one just closed is still an orphan. -/
theorem mem_of_close {d d' : Database} {o o' : Session} {aid : ℤ} {snapshot : RuntimeSnapshot}
    {reason : ExitReason} (h : closeAndRollup d o.id aid snapshot reason = .ok d')
    (ho' : o' ∈ d.sessions) (h_ne : o'.id ≠ o.id) : o' ∈ d'.sessions := by
  rcases closeAndRollup_ok h with ⟨-, rfl⟩ | ⟨-, h_tables⟩
  · exact ho'
  · have h_sessions : d'.sessions =
        Sql.updateWhere (isOpenRow o.id) (closeRow snapshot reason) d.sessions := by rw [h_tables]
    rw [h_sessions]
    refine Sql.mem_updateWhere.mpr ⟨o', ho', if_neg ?_⟩
    rw [isOpenRow, decide_eq_false h_ne, Bool.false_and]
    exact Bool.false_ne_true

/-- The invariant of the loop: what is still to do are orphans, and there are no others. -/
structure Recovering (d₀ : Database) (m₀ : SessionManager) (xs : List Session) (m : SessionManager)
    (d : Database) : Prop where
  memory : m = m₀
  partly : PartlyRecovered d₀ d
  orphans : ∀ o ∈ xs, o ∈ d.sessions ∧ o.isOpen = true
  nodup : (xs.map Session.id).Nodup
  complete : ∀ sid aid, (sid, aid) ∈ d.openRows → sid ∈ xs.map Session.id

theorem Recovering.tail {d₀ d d' : Database} {m₀ m : SessionManager} {o : Session}
    {xs : List Session} (h : Recovering d₀ m₀ (o :: xs) m d)
    (h_close : closeAndRollup d o.id o.applicationId (lastSnapshot o) .recovered = .ok d') :
    Recovering d₀ m₀ xs m d' where
  memory := h.memory
  partly :=
    h.partly.close (h.orphans o List.mem_cons_self).1 (h.orphans o List.mem_cons_self).2 h_close
  orphans := by
    intro o' ho'
    obtain ⟨h_mem, h_open⟩ := h.orphans o' (List.mem_cons_of_mem _ ho')
    -- the list has no orphan twice
    have h_ne : o'.id ≠ o.id := by
      intro h_eq
      apply (List.nodup_cons.mp h.nodup).1
      rw [← h_eq]
      exact List.mem_map_of_mem ho'
    exact ⟨mem_of_close h_close h_mem h_ne, h_open⟩
  nodup := (List.nodup_cons.mp h.nodup).2
  complete := by
    intro sid aid h_row
    rw [(closeAndRollup_rows h_close).1, List.mem_filter] at h_row
    rcases List.mem_cons.mp (h.complete sid aid h_row.1) with h_eq | h_mem
    · exact absurd h_row.2 (by rw [decide_eq_true_eq]; exact fun h_ne => h_ne h_eq)
    · exact h_mem

theorem openSessions_eq_nil {d : Database} (h : d.openRows = []) : d.openSessions = [] :=
  List.map_eq_nil_iff.mp h

/-- **Orphan recovery.** Started on a partly recovered database, a recovery that completes recovers
the rest; one that fails or dies leaves a partly recovered database. It opens nothing. -/
theorem recoverOrphans_spec {d₀ d : Database} (h : PartlyRecovered d₀ d) (m : SessionManager) :
    wp recoverOrphans
      (fun r m' d' => PartlyRecovered d₀ d' ∧
        ∀ n, r = .ok n → ExactlyOnce d₀ d' ∧ m'.open_ = m.open_ ∧
          (m'.log = m.log ∨ m'.log = m.log ++ [.recovered n]))
      (PartlyRecovered d₀) m d := by
  unfold recoverOrphans
  refine wp_read_bind ?_ (fun e => ⟨h, fun n h_ok => nomatch h_ok⟩) h
  apply wp_bind
  apply wp_forM (Recovering d₀ m)
  · rintro o xs m' d' h_loop
    apply wp_write
    · intro d'' h_close
      exact h_loop.tail h_close
    · exact fun e => ⟨h_loop.partly, fun n h_ok => nomatch h_ok⟩
    · exact h_loop.partly
  · rintro m' d' h_loop
    obtain rfl := h_loop.memory
    -- an open row would still be to do
    have h_none : d'.openSessions = [] := by
      apply openSessions_eq_nil
      apply List.eq_nil_iff_forall_not_mem.mpr
      rintro ⟨sid, aid⟩ h_row
      exact absurd (h_loop.complete sid aid h_row) List.not_mem_nil
    have h_once := h_loop.partly.exactlyOnce h_none
    by_cases h_count : 0 < (listAllOrphans d).length
    · rw [if_pos h_count]
      apply wp_modify_bind
      refine wp_pure ⟨h_loop.partly, fun n h_n => ⟨h_once, rfl, .inr ?_⟩⟩
      rw [Except.ok.inj h_n]
      rfl
    · rw [if_neg h_count]
      exact wp_bind (wp_pure (wp_pure ⟨h_loop.partly, fun n _ => ⟨h_once, rfl, .inl rfl⟩⟩))
  · refine ⟨rfl, h, ?_, ?_, ?_⟩
    · intro o ho
      exact List.mem_filter.mp ho
    · exact d.session_ids_nodup.sublist ((List.filter_sublist).map Session.id)
    · intro sid aid h_row
      obtain ⟨s, hs, h_open, rfl, -⟩ := Database.mem_openRows.mp h_row
      exact List.mem_map_of_mem (List.mem_filter.mpr ⟨hs, h_open⟩)

end Ludex
