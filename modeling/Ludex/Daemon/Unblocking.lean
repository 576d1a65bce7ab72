import Ludex.Core.ApplicationMerge
import Ludex.Core.Identity
import Ludex.Daemon.Blocklist
import Ludex.Daemon.CrashRecovery
import Ludex.Daemon.Announcements

/-!
# Blocked for ever

A game is blocked by its key, in the table and in the set that the session manager consults. The calls
that block and unblock name it by its application, though, and look the key up there. So a blocked key
needs an application to be unblocked, and the manager makes no application for a key that is blocked:
when the command line merges the application of a blocked game into another one, the key is blocked for
ever (`unblockable_iff`).

The system is the daemon over its lifetimes (`System`), with the calls that it serves and what other
processes do to the database in between. Restoring a backup is no step of it.
-/

namespace Ludex

open Transact SessionManager Run

/-! ### Databases without a key -/

/-- No application has the key. -/
def Database.Lacks (d : Database) (key : GameKey) : Prop := ∀ row ∈ d.keyRows, row.2 ≠ key

section Lacks

variable {d d' : Database} {key : GameKey}

theorem Database.not_lacks_iff : ¬ d.Lacks key ↔ ∃ a ∈ d.applications, a.key = key := by
  unfold Lacks keyRows
  simp

theorem Database.Lacks.congr (h : d.Lacks key) (h_keys : d'.keyRows = d.keyRows) : d'.Lacks key := by
  unfold Lacks
  rw [h_keys]
  exact h

/-- Recovering sessions changes no key. -/
theorem PartlyRecovered.keyRows (h : PartlyRecovered d d') : d'.keyRows = d.keyRows := by
  obtain ⟨done, h_done⟩ := h
  have h_apps : d'.applications = d.applications.map (recoverApplication done d.sessions) := by
    rw [h_done]
    rfl
  unfold Database.keyRows
  rw [h_apps, List.map_map]
  refine List.map_congr_left fun a _ => ?_
  show ((recoverApplication done d.sessions a).id, (recoverApplication done d.sessions a).key) = _
  unfold recoverApplication
  split
  · rfl
  · rfl

/-- A step other than a creation brings in no key. -/
theorem Database.Lacks.step (h : d.Lacks key) {c : Call} (h_step : Ludex.Step d c d')
    (h_create : ∀ new, c ≠ .done (.create new)) : d'.Lacks key := by
  rintro ⟨aid, key'⟩ h_row
  obtain ⟨a', ha', rfl, rfl⟩ := Database.mem_keyRows.mp h_row
  have h_old : ∀ a ∈ d.applications, a.key ≠ key := fun a ha =>
    h (a.id, a.key) (Database.mem_keyRows.mpr ⟨a, ha, rfl, rfl⟩)
  cases h_step.rowChange ha' with
  | kept ha _ => exact h_old a' ha
  | created _ => exact absurd rfl (h_create _)
  -- the row that is left of an application has its key
  | closed ha | charged ha => exact fun h_key => h_old _ ha h_key
  | uncharged ha => exact h_old _ ha
  | recomputed ha => exact fun h_key => h_old _ ha h_key
  | merged _ ha => exact fun h_key => h_old _ ha h_key

theorem Database.Lacks.enriched (h : d.Lacks key) {id : ℤ} {update : IdentityUpdate}
    (h_update : ApplicationRepo.updateIdentity d id update = .ok d') : d'.Lacks key := by
  refine h.congr ?_
  unfold Database.keyRows
  rw [ApplicationRepo.updateIdentity_ok_iff.mp h_update]
  exact Sql.map_updateWhere fun _ _ => rfl

/-- A move creates an application only for the key it is about. -/
theorem Move.lacks {on : Occasion} {s t : Live} (h_move : Move on s t)
    (h_on : ∀ at_, on ≠ .started key at_) (h : s.2.Lacks key) : t.2.Lacks key := by
  cases h_move with
  | noted | notified | refused | stranded => exact h
  | created key' displayName executablePath at_ app h_started h_create =>
    obtain ⟨-, h_keys, h_app⟩ := create_rows h_create
    intro row h_row
    rw [h_keys] at h_row
    rcases List.mem_append.mp h_row with h_row | h_row
    · exact h row h_row
    · rw [List.mem_singleton.mp h_row]
      rintro rfl
      -- the new application is one for the key that was started
      exact h_on at_ (h_started.trans (by rw [h_app]; rfl))
  | opened key' at_ aid row o h_started h_absent h_key h_begin =>
    exact h.congr (begin_rows h_begin).2.1
  | beat key' o sample at_ h_tick h_o h_beat => exact h.congr (heartbeat_rows h_beat).2
  | closed key' o sample at_ reason h_closes h_o h_close =>
    exact h.congr (closeAndRollup_rows h_close).2

theorem Moves.lacks {on : Occasion} {s t : Live} (h_moves : Moves on s t)
    (h_on : ∀ at_, on ≠ .started key at_) (h : s.2.Lacks key) : t.2.Lacks key := by
  induction h_moves with
  | refl => exact h
  | tail _ h_move ih => exact h_move.lacks h_on ih

/-- A turn under a blocklist with the key creates no application for it. -/
theorem turn_lacks (m : SessionManager) (h : d.Lacks key) {input : SessionManager.Input}
    (h_reads : ∀ event blocklist sample, input = .event event blocklist sample → key ∈ blocklist) :
    wp (turn input) (fun _ _ d' => d'.Lacks key) (fun d' => d'.Lacks key) m d := by
  by_cases h_on : ∀ at_, input.occasion ≠ .started key at_
  · refine wp_mono (turn_moves m d input) (fun _ _ _ h_moves => h_moves.lacks h_on h) ?_
    rintro d' ⟨m', h_moves⟩
    exact h_moves.lacks h_on h
  · obtain ⟨at_, h_on⟩ := not_forall_not.mp h_on
    match input with
    | .heartbeat _ _ _ _ => exact nomatch h_on
    | .event (.stopped _ _) _ _ => exact nomatch h_on
    | .event (.started key' displayName executablePath at') blocklist sample =>
      obtain ⟨rfl, rfl⟩ := Occasion.started.inj h_on
      -- the game is blocked
      refine wp_logged (P := fun _ _ d' => d'.Lacks key') ?_ (fun _ _ h' => h') fun _ _ _ h' => h'
      show wp (handleStarted key' displayName executablePath at' blocklist sample) _ _ m d
      unfold handleStarted
      apply wp_get_bind
      rw [if_pos (h_reads _ _ _ rfl)]
      exact wp_modify h

end Lacks

/-! ### The system -/

/-- The daemon and its database, with the stores of the blocked keys and the calls on them. The set and
the calls are those of the running process, if any. -/
structure Blocking extends System, Tracker

namespace Blocking

/-- What can happen. -/
inductive Label where
  /-- The daemon takes a step. When it boots it reads the table, with the storage error that this
  meets, if any. -/
  | daemon (l : System.Label) (failure : Option Error)
  /-- A call comes in. -/
  | receive (method : Tracker.Method) (id : ℤ)
  /-- A call takes its next step. -/
  | serve (call : ℕ) (failure : Option Error) (at_ : OffsetDateTime)
  | delete (ids : List ℤ)
  | merge (srcId dstId : ℤ)
  | enrich (id : ℤ) (update : IdentityUpdate)

/-- The manager looks a `Started` up in the set. -/
def Consults (blocklist : Finset GameKey) : SessionManager.Input → Prop
  | .event _ blocklist' _ => blocklist'.toFinset = blocklist
  | .heartbeat _ _ _ _ => True

instance (blocklist : Finset GameKey) : (input : SessionManager.Input) →
    Decidable (Consults blocklist input)
  | .event _ blocklist' _ => inferInstanceAs (Decidable (blocklist'.toFinset = blocklist))
  | .heartbeat _ _ _ _ => instDecidableTrue

/-- What is left when the daemon has taken a step. -/
def after (s : Blocking) (l : System.Label) (failure : Option Error) (t : System) : Blocking :=
  match l with
  -- a new process, which hydrates its set from the table
  | .boot _ => { t, Tracker.starting s.table failure [] with }
  | _ => { s with toSystem := t }

/-- One step. -/
def next (s : Blocking) : Label → Option Blocking
  | .daemon l failure =>
    match l with
    | .turn input _ =>
      if Consults s.blocklist input then (s.toSystem.next l).map (s.after l failure) else none
    | _ => (s.toSystem.next l).map (s.after l failure)
  | .receive method id =>
    if s.process.isSome then some { s with calls := s.calls ++ [⟨method, id, .finding⟩] } else none
  | .serve call failure at_ =>
    if s.process.isSome then
      some { s with toTracker := s.toTracker.turn ⟨call, s.db, failure, at_⟩ }
    else none
  | .delete ids =>
    (SessionRepo.deleteSessionsAndRecompute s.db ids).toOption.map fun x => { s with db := x.2 }
  | .merge srcId dstId =>
    (ApplicationRepo.mergeInto s.db srcId dstId).toOption.map fun d => { s with db := d }
  | .enrich id update =>
    (ApplicationRepo.updateIdentity s.db id update).toOption.map fun d => { s with db := d }

def Step (s : Blocking) (l : Label) (t : Blocking) : Prop := s.next l = some t

/-- If the daemon boots, it can read the table. -/
def Label.ReadsTable : Label → Prop
  | daemon (.boot _) failure => failure = none
  | _ => True

instance : (l : Label) → Decidable l.ReadsTable
  | .daemon (.boot _) failure => inferInstanceAs (Decidable (failure = none))
  | .daemon (.turn _ _) _ | .daemon (.shutdown _ _ _) _ | .daemon .crash _ | .receive _ _
  | .serve _ _ _ | .delete _ | .merge _ _ | .enrich _ _ => instDecidableTrue

/-! ### Blocked keys -/

/-- The call writes about another key, if it has looked its key up. -/
def Spares (key : GameKey) (c : Tracker.Call) : Prop :=
  c.state ≠ .writing key ∧ c.state ≠ .flipping key

instance (key : GameKey) (c : Tracker.Call) : Decidable (Spares key c) :=
  inferInstanceAs (Decidable (_ ∧ _))

/-- **The key is blocked**: in the table, and while the daemon runs also in the set, with no call
under way that is about to write it. -/
structure Blocks (key : GameKey) (s : Blocking) : Prop where
  table : key ∈ BlockedRepo.list s.table
  set : s.process.isSome = true → key ∈ s.blocklist
  spared : s.process.isSome = true → ∀ c ∈ s.calls, Spares key c

/-- The key is blocked, and no application has it. -/
structure Sealed (key : GameKey) (s : Blocking) : Prop extends Blocks key s where
  lacks : s.db.Lacks key

section Sealed

variable {key : GameKey} {s t : Blocking}

/-- What others do to the database does not matter to the stores. -/
theorem Sealed.database (h : s.Sealed key) {d : Database} (h_lacks : d.Lacks key) :
    Sealed key { s with db := d } :=
  ⟨⟨h.table, h.set, h.spared⟩, h_lacks⟩

/-- A call that is about another key leaves this one blocked. -/
theorem mem_put_of_ne {keys : Finset GameKey} (h : key ∈ keys) {key' : GameKey} (h_ne : key' ≠ key)
    (up : Bool) : key ∈ Switches.put keys (key', up) := by
  have h_same := Switches.decide_mem_put keys key key' up
  rw [if_neg h_ne] at h_same
  exact (decide_eq_decide.mp h_same).mpr h

/-- The application that a call finds has another key than one that no application has. -/
theorem spares_step {turn : Tracker.Turn} {stores : Tracker.Stores} {c : Tracker.Call}
    (h_lacks : turn.db.Lacks key) (h : Spares key c) (h_table : key ∈ BlockedRepo.list stores.table)
    (h_set : key ∈ stores.blocklist) :
    key ∈ BlockedRepo.list (c.step turn stores).1.table ∧
      key ∈ (c.step turn stores).1.blocklist ∧ Spares key (c.step turn stores).2 := by
  obtain ⟨method, id, state⟩ := c
  -- a call that has returned writes no more
  have h_reply : ∀ reply, Spares key ((⟨method, id, state⟩ : Tracker.Call).reply reply) :=
    fun _ => ⟨fun h_state => Tracker.CallState.noConfusion h_state,
      fun h_state => Tracker.CallState.noConfusion h_state⟩
  unfold Tracker.Call.step
  cases state with
  | finding =>
    cases turn.failure with
    | some e => exact ⟨h_table, h_set, h_reply _⟩
    | none =>
      cases h_find : ApplicationRepo.findById turn.db id with
      | none => exact ⟨h_table, h_set, h_reply _⟩
      -- an application that the call finds has another key, since none has this one
      | some app =>
        obtain ⟨h_mem, -⟩ := ApplicationRepo.findById_some h_find
        have h_ne : app.key ≠ key :=
          h_lacks (app.id, app.key) (Database.mem_keyRows.mpr ⟨app, h_mem, rfl, rfl⟩)
        exact ⟨h_table, h_set, fun h_state => h_ne (Tracker.CallState.writing.inj h_state),
          fun h_state => Tracker.CallState.noConfusion h_state⟩
  -- so what a call writes is another key's row
  | writing key' =>
    have h_ne : key' ≠ key := fun h_key => h.1 (congrArg Tracker.CallState.writing h_key)
    cases turn.failure with
    | some e => exact ⟨h_table, h_set, h_reply _⟩
    | none =>
      refine ⟨?_, h_set, fun h_state => Tracker.CallState.noConfusion h_state,
        fun h_state => h_ne (Tracker.CallState.flipping.inj h_state)⟩
      show key ∈ BlockedRepo.list (method.writeTable stores.table key' turn.at_)
      rw [Tracker.Method.list_writeTable]
      exact mem_put_of_ne h_table h_ne _
  -- and another key's place in the set
  | flipping key' =>
    have h_ne : key' ≠ key := fun h_key => h.2 (congrArg Tracker.CallState.flipping h_key)
    refine ⟨h_table, ?_, h_reply _⟩
    show key ∈ method.writeSet stores.blocklist key'
    rw [Tracker.Method.writeSet_eq]
    exact mem_put_of_ne h_set h_ne _
  | returned reply => exact ⟨h_table, h_set, h⟩

/-- **A step of a call** keeps the key blocked. -/
theorem Sealed.serve (h : s.Sealed key) (h_running : s.process.isSome = true)
    {turn : Tracker.Turn} (h_db : turn.db = s.db) :
    Sealed key { s with toTracker := s.toTracker.turn turn } := by
  cases h_call : s.calls[turn.call]? with
  | none =>
    rw [Tracker.turn_of_none h_call]
    exact h
  | some c =>
    obtain ⟨h_stores, h_calls⟩ := Tracker.turn_of_call h_call
    -- the call at hand spares the key, as all of them do
    obtain ⟨h_table, h_set, h_spares⟩ := spares_step (h_db ▸ h.lacks)
      (h.spared h_running c (List.mem_of_getElem? h_call)) h.table (h.set h_running)
    rw [← h_stores] at h_table h_set
    refine ⟨⟨h_table, fun _ => h_set, fun _ c' h_c' => ?_⟩, h.lacks⟩
    have h_mem : c' ∈ (s.toTracker.turn turn).calls := h_c'
    rw [h_calls] at h_mem
    -- the other calls are as they were
    rcases List.mem_or_eq_of_mem_set h_mem with h_mem | rfl
    · exact h.spared h_running c' h_mem
    · exact h_spares

/-- A step of the daemon other than a boot keeps the key blocked, if it creates no application for
the key. -/
theorem Sealed.lived (h : s.Sealed key) {d : Database} (h_lacks : d.Lacks key)
    (process : Option SessionManager) (h_process : process.isSome = true → s.process.isSome = true) :
    Sealed key { s with toSystem := ⟨d, process⟩ } :=
  ⟨⟨h.table, fun h_some => h.set (h_process h_some), fun h_some => h.spared (h_process h_some)⟩,
    h_lacks⟩

/-- A boot that can read the table takes the key into the new set. -/
theorem Sealed.booted (h : s.Sealed key) {d : Database} (h_lacks : d.Lacks key)
    (process : Option SessionManager) :
    Sealed key { (⟨d, process⟩ : System), Tracker.starting s.table none [] with } :=
  ⟨⟨h.table, fun _ => h.table, fun _ _ h_c => absurd h_c List.not_mem_nil⟩, h_lacks⟩

/-- **Every step of the daemon** keeps the key blocked. A new process reads the table, in which the key
is; and of what a process does only an accepted start makes an application, whose key was not in the
set. -/
theorem Sealed.daemon (h : s.Sealed key) {l : System.Label} {failure : Option Error}
    (h_table : (Label.daemon l failure).ReadsTable) (h_step : s.Step (.daemon l failure) t) :
    t.Sealed key := by
  have h_on : ∀ at_, Occasion.shutdown ≠ .started key at_ := fun _ h_eq => nomatch h_eq
  -- the set was consulted as it is, and the step is one of the daemon
  obtain ⟨sys, h_daemon, rfl, h_consults⟩ : ∃ sys, s.toSystem.Step l sys ∧
      t = s.after l failure sys ∧ ∀ input fates, l = .turn input fates → Consults s.blocklist input := by
    unfold Step next at h_step
    cases l with
    | turn input fates =>
      by_cases h_consults : Consults s.blocklist input
      · simp only [if_pos h_consults] at h_step
        obtain ⟨sys, h_next, rfl⟩ := Option.map_eq_some_iff.mp h_step
        refine ⟨sys, h_next, rfl, ?_⟩
        rintro _ _ ⟨rfl, rfl⟩
        exact h_consults
      · simp only [if_neg h_consults] at h_step
        exact nomatch h_step
    | boot fates =>
      obtain ⟨sys, h_next, rfl⟩ := Option.map_eq_some_iff.mp h_step
      exact ⟨sys, h_next, rfl, fun _ _ h_label => nomatch h_label⟩
    | shutdown now order fates =>
      obtain ⟨sys, h_next, rfl⟩ := Option.map_eq_some_iff.mp h_step
      exact ⟨sys, h_next, rfl, fun _ _ h_label => nomatch h_label⟩
    | crash =>
      obtain ⟨sys, h_next, rfl⟩ := Option.map_eq_some_iff.mp h_step
      exact ⟨sys, h_next, rfl, fun _ _ h_label => nomatch h_label⟩
  cases h_daemon.does with
  | boot _ =>
    obtain rfl : failure = none := h_table
    -- the recovery makes no application, whether or not it gets to its end
    refine System.afterBoot_of_wp (P := fun sys => Sealed key (s.after (.boot _) none sys))
      (wp_mono (recoverOrphans_spec (.refl s.db) {}) ?_ ?_) _
    · rintro r m' d' ⟨h_partly, -⟩
      have h_lacks := h.lacks.congr h_partly.keyRows
      exact ⟨h.booted h_lacks none, fun _ _ => h.booted h_lacks (some m')⟩
    · exact fun d' h_partly => h.booted (h.lacks.congr h_partly.keyRows) none
  | @turn m input fates h_some _ =>
    have h_running : s.process.isSome = true := h_some ▸ rfl
    have h_reads : ∀ event blocklist sample, input = .event event blocklist sample →
        key ∈ blocklist := by
      rintro event blocklist sample rfl
      have h_set : key ∈ s.blocklist := h.set h_running
      rw [← show blocklist.toFinset = s.blocklist from h_consults _ _ rfl] at h_set
      exact List.mem_toFinset.mp h_set
    exact System.afterTurn_of_wp (P := fun sys => Sealed key (s.after (.turn input fates) failure sys))
      (wp_mono (turn_lacks m h.lacks h_reads)
        (fun _ m' _ h_lacks => h.lived h_lacks (some m') fun _ => h_running)
        fun _ h_lacks => h.lived h_lacks none fun _ => h_running) _
  | @shutdown m now order fates h_some h_order =>
    have h_running : s.process.isSome = true := h_some ▸ rfl
    refine System.afterShutdown_of_wp
      (P := fun sys => Sealed key (s.after (.shutdown now order fates) failure sys))
      (wp_mono (closeAllOpen_moves m s.db .terminated now h_order) ?_ ?_) _
    · rintro r m' d' ⟨-, -, h_moves⟩
      exact h.lived (h_moves.lacks h_on h.lacks) none fun _ => h_running
    · rintro d' ⟨m', h_moves⟩
      exact h.lived (h_moves.lacks h_on h.lacks) none fun _ => h_running
  | crash => exact h.lived h.lacks none fun h_none => nomatch h_none

/-- **Every step** keeps the key blocked, and makes no application for it. -/
theorem Sealed.step (h : s.Sealed key) {l : Label} (h_table : l.ReadsTable) (h_step : s.Step l t) :
    t.Sealed key := by
  cases l with
  | daemon l failure => exact h.daemon h_table h_step
  | receive method id =>
    by_cases h_running : s.process.isSome = true
    · simp only [Step, next, if_pos h_running] at h_step
      obtain rfl := Option.some.inj h_step
      refine ⟨⟨h.table, h.set, fun _ c h_c => ?_⟩, h.lacks⟩
      -- a call that has just come in has not looked anything up
      rcases List.mem_append.mp h_c with h_c | h_c
      · exact h.spared h_running c h_c
      · rw [List.mem_singleton.mp h_c]
        exact ⟨fun h_state => Tracker.CallState.noConfusion h_state,
          fun h_state => Tracker.CallState.noConfusion h_state⟩
    · simp only [Step, next, if_neg h_running] at h_step
      exact nomatch h_step
  | serve call failure at_ =>
    by_cases h_running : s.process.isSome = true
    · simp only [Step, next, if_pos h_running] at h_step
      obtain rfl := Option.some.inj h_step
      exact h.serve h_running rfl
    · simp only [Step, next, if_neg h_running] at h_step
      exact nomatch h_step
  | delete ids =>
    obtain ⟨⟨deleted, d⟩, h_delete, rfl⟩ := Option.map_eq_some_iff.mp h_step
    have h_run : (Op.deleteSessionsAndRecompute ids).run s.db = .ok d :=
      congrArg (Except.map Prod.snd) (Except.toOption_eq_some_iff.mp h_delete)
    -- none of what others do to the database makes an application for the key
    exact h.database (h.lacks.step (.done h_run) fun _ h_call => nomatch h_call)
  | merge srcId dstId =>
    obtain ⟨d, h_merge, rfl⟩ := Option.map_eq_some_iff.mp h_step
    have h_run : (Op.mergeInto srcId dstId).run s.db = .ok d :=
      Except.toOption_eq_some_iff.mp h_merge
    exact h.database (h.lacks.step (.done h_run) fun _ h_call => nomatch h_call)
  | enrich id update =>
    obtain ⟨d, h_update, rfl⟩ := Option.map_eq_some_iff.mp h_step
    exact h.database (h.lacks.enriched (Except.toOption_eq_some_iff.mp h_update))

end Sealed

/-! ### Unblocking -/

/-- The key is in neither store. -/
def Unblocked (key : GameKey) (s : Blocking) : Prop :=
  key ∉ BlockedRepo.list s.table ∧ key ∉ s.blocklist

/-- The last call takes a step. -/
theorem turn_last {t : Tracker} {rest : List Tracker.Call} {c : Tracker.Call}
    (h_calls : t.calls = rest ++ [c]) {turn : Tracker.Turn} (h_call : turn.call = rest.length) :
    t.turn turn = ⟨(c.step turn t.toStores).1, rest ++ [(c.step turn t.toStores).2]⟩ := by
  have h_at : t.calls[turn.call]? = some c := by
    rw [h_calls, h_call]
    exact List.getElem?_concat_length
  obtain ⟨h_stores, h_after⟩ := Tracker.turn_of_call h_at
  rw [h_calls, h_call, List.set_append_right _ _ le_rfl, Nat.sub_self] at h_after
  exact congr (congrArg Tracker.mk h_stores) h_after

/-- The daemon serves the last call. -/
theorem step_served {sys : System} (h_running : sys.process.isSome = true)
    {stores stores' : Tracker.Stores} {rest : List Tracker.Call} {c c' : Tracker.Call}
    (h_step : c.step ⟨rest.length, sys.db, none, .firstDay 0⟩ stores = (stores', c')) :
    Step ⟨sys, stores, rest ++ [c]⟩ (.serve rest.length none (.firstDay 0))
      ⟨sys, stores', rest ++ [c']⟩ := by
  simp only [Step, next, if_pos h_running]
  rw [turn_last rfl rfl, h_step]

/-- **A call unblocks** the key of an application. -/
theorem exists_unblocked {s : Blocking} (h_running : s.process.isSome = true) {a : Application}
    (ha : a ∈ s.db.applications) :
    ∃ tr, IsRun Step s tr ∧ (∀ x ∈ tr, x.1.ReadsTable) ∧ Unblocked a.key (final s tr) := by
  have h_find : ApplicationRepo.findById s.db a.id = some a := by
    cases h_find : ApplicationRepo.findById s.db a.id with
    | none => exact absurd rfl (findById_eq_none_iff.mp h_find a ha)
    | some a' =>
      obtain ⟨ha', h_id⟩ := ApplicationRepo.findById_some h_find
      rw [s.db.application_unique ha' ha h_id]
  -- the call comes in, finds the application, writes the table, and writes the set
  let call (state : Tracker.CallState) : List Tracker.Call :=
    s.calls ++ [⟨.unblockApplication, a.id, state⟩]
  let written : Tracker.Stores :=
    { s.toStores with
      table := (BlockedRepo.remove s.table a.key).2
      tableWrites := s.tableWrites ++ [(a.key, false)] }
  let flipped : Tracker.Stores :=
    { written with
      blocklist := s.blocklist.erase a.key
      setWrites := s.setWrites ++ [(a.key, false)] }
  have h_receive : s.Step (.receive .unblockApplication a.id)
      ⟨s.toSystem, s.toStores, call .finding⟩ := if_pos h_running
  have h_found : Step ⟨s.toSystem, s.toStores, call .finding⟩ _
      ⟨s.toSystem, s.toStores, call (.writing a.key)⟩ :=
    step_served h_running (by simp only [Tracker.Call.step, h_find])
  have h_written : Step ⟨s.toSystem, s.toStores, call (.writing a.key)⟩ _
      ⟨s.toSystem, written, call (.flipping a.key)⟩ := step_served h_running rfl
  have h_flipped : Step ⟨s.toSystem, written, call (.flipping a.key)⟩ _
      ⟨s.toSystem, flipped, call (.returned (.ok ()))⟩ := step_served h_running rfl
  refine ⟨_, .cons h_receive (.cons h_found (.cons h_written (.cons h_flipped (.nil _)))),
    by simp [Label.ReadsTable], ?_, ?_⟩
  · show a.key ∉ BlockedRepo.list (BlockedRepo.remove s.table a.key).2
    rw [BlockedRepo.list_remove]
    exact Finset.notMem_erase a.key _
  · exact Finset.notMem_erase a.key s.blocklist

/-- **When a blocked game can be unblocked.** Let a key be blocked while the daemon runs. As long as
every later start can read the table, there is a run that unblocks it if and only if an application has
the key. If none has, then whatever happens (events, calls, crashes and restarts, deletes and merges) the
key stays blocked, and no application for it appears. -/
theorem unblockable_iff {key : GameKey} {s : Blocking} (h : s.Blocks key)
    (h_running : s.process.isSome = true) :
    ((∃ tr, IsRun Step s tr ∧ (∀ x ∈ tr, x.1.ReadsTable) ∧ Unblocked key (final s tr)) ↔
      ∃ a ∈ s.db.applications, a.key = key) ∧
    ((∀ a ∈ s.db.applications, a.key ≠ key) → ∀ tr, IsRun Step s tr →
      (∀ x ∈ tr, x.1.ReadsTable) → ∀ t ∈ states s tr, t.Sealed key) := by
  have h_sealed : (∀ a ∈ s.db.applications, a.key ≠ key) → ∀ tr, IsRun Step s tr →
      (∀ x ∈ tr, x.1.ReadsTable) → ∀ t ∈ states s tr, t.Sealed key := by
    intro h_none tr hrun h_reads
    have h_lacks : s.db.Lacks key := by
      by_contra h_some
      obtain ⟨a, ha, h_key⟩ := Database.not_lacks_iff.mp h_some
      exact h_none a ha h_key
    refine hrun.invariant_of_steps (Sealed key) (fun _ l => l.ReadsTable)
      (fun _ _ _ h_step h_l h_inv => h_inv.step h_l h_step) ?_ ⟨h, h_lacks⟩
    intro x h_x
    obtain ⟨before, l, t, after, rfl, rfl⟩ := mem_steps_iff.mp h_x
    exact h_reads (l, t) (List.mem_append_right _ List.mem_cons_self)
  refine ⟨⟨?_, ?_⟩, h_sealed⟩
  · rintro ⟨tr, hrun, h_reads, h_unblocked⟩
    -- without an application, the key would still be blocked in the end
    by_contra h_none
    have h_end := h_sealed (fun a ha h_key => h_none ⟨a, ha, h_key⟩) tr hrun h_reads _
      (final_mem_states s tr)
    exact h_unblocked.1 h_end.table
  · rintro ⟨a, ha, rfl⟩
    exact exists_unblocked h_running ha

/-! #### Merged away -/

/-- Nothing has been played, and the daemon does not run. -/
def fresh : Blocking := { (⟨Database.empty, none⟩ : System), Tracker.starting ⟨[], .nil⟩ none [] with }

/-- Two games are played, and the second one is blocked. -/
def blocking : List Label :=
  .daemon (.boot []) none ::
    [startedSteam "20" 100 [], stoppedSteam "20" 130 0 [], startedSteam "10" 200 [],
      stoppedSteam "10" 230 0 []].map (fun x => .daemon (.turn x.1 x.2) none) ++
    [.receive .blockApplication 2, .serve 0 none (.firstDay 300), .serve 0 none (.firstDay 300),
      .serve 0 none (.firstDay 300)]

def blocked : Blocking := final fresh (trace next fresh blocking)

/-- Then its application is merged into that of the first one. -/
def mergedAway : Blocking := final fresh (trace next fresh (blocking ++ [.merge 2 1]))

theorem unblockable_iff_mergedAway :
    (∃ tr, IsRun Step blocked tr ∧ (∀ x ∈ tr, x.1.ReadsTable) ∧
      Unblocked (.steam "10") (final blocked tr)) ∧
    ¬ ∃ tr, IsRun Step mergedAway tr ∧ (∀ x ∈ tr, x.1.ReadsTable) ∧
      Unblocked (.steam "10") (final mergedAway tr) := by
  have h_before : blocked.Blocks (.steam "10") :=
    ⟨by decide +kernel, by decide +kernel, by decide +kernel⟩
  have h_after : mergedAway.Blocks (.steam "10") :=
    ⟨by decide +kernel, by decide +kernel, by decide +kernel⟩
  refine ⟨(unblockable_iff h_before (by decide +kernel)).1.mpr (by decide +kernel), fun h_some => ?_⟩
  obtain ⟨a, ha, h_key⟩ := (unblockable_iff h_after (by decide +kernel)).1.mp h_some
  have h_keys : ∀ a ∈ mergedAway.db.applications, a.key ≠ .steam "10" := by decide +kernel
  exact h_keys a ha h_key

end Blocking

end Ludex
