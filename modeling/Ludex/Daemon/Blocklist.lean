import Ludex.Lib.Switches
import Ludex.Lib.TwoWrites
import Ludex.Core.ApplicationRepo
import Ludex.Core.BlockedRepo

/-!
# Blocking applications over D-Bus

`block_application` and `unblock_application` of `dbus.rs` look the application up, write the table
`blocked_applications`, and then write the shared set that the session manager consults. The table
and the set are written one after the other, and the bus dispatches calls concurrently, so the halves
of two calls may be interleaved (`Tracker.turn`). A database error ends a call where it is.

They are calls that write two stores (`protocol`), and an observer notes the writes of either. Once
every call has returned, the two have been written about the same keys, and they agree exactly if for
every key the last write of the table and the last write of the set are of the same kind
(`blocklist_agrees_iff`). They would, if a call held a lock from its first write to its second one
(`blocklist_agrees_of_exclusive`).
-/

namespace Ludex

open Switches TwoWrites

namespace Tracker

/-- The two methods. -/
inductive Method where
  | blockApplication
  | unblockApplication
deriving DecidableEq

/-- The method puts the key in. -/
def Method.blocks : Method → Bool
  | .blockApplication => true
  | .unblockApplication => false

/-- The statement of a method. -/
def Method.writeTable (method : Method) (table : BlockedTable) (key : GameKey)
    (at_ : OffsetDateTime) : BlockedTable :=
  match method with
  | .blockApplication => (BlockedRepo.insert table key at_).2
  | .unblockApplication => (BlockedRepo.remove table key).2

/-- What a method does to the shared set. -/
def Method.writeSet (method : Method) (blocklist : Finset GameKey) (key : GameKey) :
    Finset GameKey :=
  match method with
  | .blockApplication => insert key blocklist
  | .unblockApplication => blocklist.erase key

theorem Method.list_writeTable (method : Method) (table : BlockedTable) (key : GameKey)
    (at_ : OffsetDateTime) :
    BlockedRepo.list (method.writeTable table key at_) =
      put (BlockedRepo.list table) (key, method.blocks) := by
  cases method with
  | blockApplication => exact BlockedRepo.list_insert table key at_
  | unblockApplication => exact BlockedRepo.list_remove table key

theorem Method.writeSet_eq (method : Method) (blocklist : Finset GameKey) (key : GameKey) :
    method.writeSet blocklist key = put blocklist (key, method.blocks) := by
  cases method with
  | blockApplication => rfl
  | unblockApplication => rfl

/-! ### Calls -/

/-- The errors of the bus. -/
inductive FdoError where
  | failed (message : String)
  /-- `into_fdo`: a failure with the text of the storage error. -/
  | storage (e : Error)
deriving DecidableEq

/-- How far a call has come. -/
inductive CallState where
  | finding
  | writing (key : GameKey)
  /-- The table has been written, the set has not. -/
  | flipping (key : GameKey)
  | returned (reply : Except FdoError Unit)
deriving DecidableEq

/-- A call, with the primary key of the application. -/
structure Call where
  method : Method
  id : ℤ
  state : CallState := .finding
deriving DecidableEq

/-- The two stores, and the writes an observer has noted. -/
structure Stores where
  table : BlockedTable
  blocklist : Finset GameKey
  tableWrites : List (GameKey × Bool) := []
  setWrites : List (GameKey × Bool) := []

/-- A call takes its next step: which one, what the rest of the database is, the storage error its
statement meets, if any, and the clock. -/
structure Turn where
  call : ℕ
  db : Database
  failure : Option Error := none
  at_ : OffsetDateTime

def Call.reply (c : Call) (reply : Except FdoError Unit) : Call := { c with state := .returned reply }

/-- The next step of a call. -/
def Call.step (turn : Turn) (s : Stores) (c : Call) : Stores × Call :=
  match c.state with
  | .finding =>
    match turn.failure with
    | some e => (s, c.reply (.error (.storage e)))
    | none =>
      match ApplicationRepo.findById turn.db c.id with
      | none => (s, c.reply (.error (.failed ("no application with id " ++ toString c.id))))
      | some app => (s, { c with state := .writing app.key })
  | .writing key =>
    match turn.failure with
    | some e => (s, c.reply (.error (.storage e)))
    | none =>
      ({ s with
          table := c.method.writeTable s.table key turn.at_
          tableWrites := s.tableWrites ++ [(key, c.method.blocks)] },
        { c with state := .flipping key })
  | .flipping key =>
    ({ s with
        blocklist := c.method.writeSet s.blocklist key
        setWrites := s.setWrites ++ [(key, c.method.blocks)] },
      c.reply (.ok ()))
  | .returned _ => (s, c)

/-- How far a call is with its two writes. -/
def Call.progress (c : Call) : Progress (GameKey × Bool) :=
  match c.state with
  | .finding | .writing _ => .pending
  | .flipping key => .owing (key, c.method.blocks)
  | .returned _ => .returned

def Call.Returned (c : Call) : Prop := c.progress = .returned

/-- The table as the keys in it, the set, and the writes of both. -/
def Stores.view (s : Stores) : View (Finset GameKey) (GameKey × Bool) :=
  ⟨BlockedRepo.list s.table, s.blocklist, s.tableWrites, s.setWrites⟩

/-- What one step of a call does: nothing to the stores, or one of the two writes. -/
theorem Call.moves (turn : Turn) (s : Stores) (c : Call) :
    HalfStep put s.view c.progress (c.step turn s).1.view (c.step turn s).2.progress := by
  obtain ⟨method, id, state⟩ := c
  cases state with
  -- a lookup that fails or finds nothing answers at once and owes nothing
  | finding =>
    unfold Call.step
    cases turn.failure with
    | some e => exact .nothing rfl
    | none =>
      cases ApplicationRepo.findById turn.db id with
      | none => exact .nothing rfl
      | some app => exact .nothing rfl
  | writing key =>
    unfold Call.step
    cases turn.failure with
    | some e => exact .nothing rfl
    | none =>
      -- the table is written first, and the set is owed from here on
      have h_move : HalfStep put s.view .pending _ _ := .first s.view (key, method.blocks)
      rw [show s.view.first = BlockedRepo.list s.table from rfl,
        ← method.list_writeTable s.table key turn.at_] at h_move
      exact h_move
  | flipping key =>
    -- the set follows in a later turn
    have h_move : HalfStep put s.view _ _ .returned := .second s.view (key, method.blocks)
    rw [show s.view.second = s.blocklist from rfl, ← method.writeSet_eq s.blocklist key] at h_move
    exact h_move
  | returned reply => exact .nothing rfl

/-- The calls, as calls that write two stores. -/
def protocol : Protocol Turn Stores Call (Finset GameKey) (GameKey × Bool) where
  step turn s c := c.step turn s
  view := Stores.view
  progress := Call.progress
  put := put
  moves turn s c := c.moves turn s

end Tracker

/-- The stores and the calls on them. -/
structure Tracker extends Tracker.Stores where
  calls : List Tracker.Call

namespace Tracker

/-- The set the daemon starts with. It is empty when the table cannot be read. -/
def hydrate (table : BlockedTable) (failure : Option Error) : Finset GameKey :=
  match failure with
  | none => BlockedRepo.list table
  | some _ => ∅

/-- The daemon has started, and calls come in. -/
def starting (table : BlockedTable) (failure : Option Error) (calls : List (Method × ℤ)) : Tracker where
  table := table
  blocklist := hydrate table failure
  calls := calls.map fun (method, id) => ⟨method, id, .finding⟩

/-- One call takes a step. -/
def turn (t : Tracker) (turn : Turn) : Tracker :=
  let (stores, calls) := protocol.turn turn.call turn t.toStores t.calls
  { toStores := stores, calls := calls }

def run (t : Tracker) (turns : List Turn) : Tracker := turns.foldl Tracker.turn t

/-! ### The invariant -/

theorem turn_of_none {t : Tracker} {turn : Turn} (h : t.calls[turn.call]? = none) :
    t.turn turn = t := by
  unfold Tracker.turn
  rw [Protocol.turn_of_none h]

theorem turn_of_call {t : Tracker} {turn : Turn} {c : Call} (h : t.calls[turn.call]? = some c) :
    (t.turn turn).toStores = (c.step turn t.toStores).1 ∧
      (t.turn turn).calls = t.calls.set turn.call (c.step turn t.toStores).2 := by
  unfold Tracker.turn
  rw [Protocol.turn_of_call h]
  exact ⟨rfl, rfl⟩

/-- A call that owes its second write now and did not before has written the table about its key. -/
theorem Call.writing_of_owing {turn : Turn} {s : Stores} {c : Call} {key : GameKey} {up : Bool}
    (h : c.progress = .pending) (h_owing : (c.step turn s).2.progress = .owing (key, up)) :
    c.state = .writing key := by
  -- only the half-step that writes the table starts to owe the set
  obtain ⟨method, id, state⟩ := c
  unfold Call.step at h_owing
  cases state with
  | finding =>
    cases h_failure : turn.failure with
    | some e => exact absurd h_owing (by simp [h_failure, Call.progress, Call.reply])
    | none =>
      cases h_app : ApplicationRepo.findById turn.db id with
      | none => exact absurd h_owing (by simp [h_failure, h_app, Call.progress, Call.reply])
      | some app => exact absurd h_owing (by simp [h_failure, h_app, Call.progress])
  | writing key' =>
    cases h_failure : turn.failure with
    | some e => exact absurd h_owing (by simp [h_failure, Call.progress, Call.reply])
    | none =>
      simp only [h_failure, Call.progress, Progress.owing.injEq, Prod.mk.injEq] at h_owing
      rw [h_owing.1]
  | flipping key' => exact absurd h (by simp [Call.progress])
  | returned reply => exact absurd h (by simp [Call.progress])

/-- Both stores are what their writes have made of them, and the table has been written as the set
has been or will be. -/
def Inv (table : BlockedTable) (blocklist : Finset GameKey) (t : Tracker) : Prop :=
  protocol.Inv (BlockedRepo.list table) blocklist t.toStores t.calls

theorem owed_starting (table : BlockedTable) (failure : Option Error) (calls : List (Method × ℤ)) :
    protocol.owed (starting table failure calls).calls = [] := by
  refine Protocol.owed_pending fun c hc => ?_
  obtain ⟨call, -, rfl⟩ := List.mem_map.mp hc
  rfl

theorem Inv.starting (table : BlockedTable) (failure : Option Error) (calls : List (Method × ℤ)) :
    Inv table (hydrate table failure) (starting table failure calls) where
  first := rfl
  second := rfl
  writes := by
    rw [owed_starting]
    exact .refl []

section Invariant

variable {table : BlockedTable} {blocklist : Finset GameKey} {t : Tracker}

theorem Inv.list_table (h : Inv table blocklist t) :
    BlockedRepo.list t.table = t.tableWrites.foldl put (BlockedRepo.list table) := h.first

theorem Inv.blocklist_eq (h : Inv table blocklist t) :
    t.blocklist = t.setWrites.foldl put blocklist := h.second

/-- **Any interleaving** keeps the invariant. -/
theorem Inv.run (h : Inv table blocklist t) (turns : List Turn) : Inv table blocklist (t.run turns) := by
  induction turns generalizing t with
  | nil => exact h
  | cons turn turns ih => exact ih (Protocol.Inv.turn h turn.call turn)

end Invariant

/-- **The blocklist and the table agree**, once every call has returned, if and only if for every key
the last write of the table and the last write of the set are of the same kind, and what was read at
startup agrees on the keys that no call has written. -/
theorem blocklist_agrees_iff (table : BlockedTable) (failure : Option Error)
    (calls : List (Method × ℤ)) (turns : List Turn)
    (h_returned : ∀ call ∈ ((starting table failure calls).run turns).calls, call.Returned) :
    ((starting table failure calls).run turns).blocklist =
        BlockedRepo.list ((starting table failure calls).run turns).table ↔
      ∀ key,
        (about key ((starting table failure calls).run turns).setWrites).getLast? =
            (about key ((starting table failure calls).run turns).tableWrites).getLast? ∧
          (about key ((starting table failure calls).run turns).setWrites = [] →
            (key ∈ hydrate table failure ↔ key ∈ BlockedRepo.list table)) := by
  have h_inv := (Inv.starting table failure calls).run turns
  -- no write is owed any more, so the two stores have been written about the same keys
  have h_writes := Protocol.Inv.returned h_inv h_returned
  rw [h_inv.list_table, h_inv.blocklist_eq]
  refine foldl_put_eq_iff fun key => ?_
  rw [about_eq_nil_iff, about_eq_nil_iff]
  exact forall_congr' fun switch => imp_congr_left h_writes.mem_iff.symm

/-! ### One call at a time -/

/-- The writes of the set about a key that are owed. -/
def owed (t : Tracker) (key : GameKey) : List Bool := about key (protocol.owed t.calls)

/-- The turn does not write the table about a key for which a call owes a write of the set: a call
holds a lock from its first write to its second one. -/
def Exclusive (t : Tracker) (turn : Turn) : Prop :=
  ∀ c key, t.calls[turn.call]? = some c → c.state = .writing key → t.owed key = []

/-- **A turn, seen from a key**: the table is written about it, or the set is, or nothing. -/
theorem turn_about (t : Tracker) (turn : Turn) (key : GameKey) :
    (about key (t.turn turn).tableWrites = about key t.tableWrites ∧
        about key (t.turn turn).setWrites = about key t.setWrites ∧
          ((t.turn turn).owed key).Perm (t.owed key)) ∨
      (∃ c up, t.calls[turn.call]? = some c ∧ c.state = .writing key ∧
        about key (t.turn turn).tableWrites = about key t.tableWrites ++ [up] ∧
          about key (t.turn turn).setWrites = about key t.setWrites ∧
            ((t.turn turn).owed key).Perm (up :: t.owed key)) ∨
      ∃ up, about key (t.turn turn).tableWrites = about key t.tableWrites ∧
        about key (t.turn turn).setWrites = about key t.setWrites ++ [up] ∧
          (t.owed key).Perm (up :: (t.turn turn).owed key) := by
  -- the turn did nothing, wrote the table or wrote the set; the last two may be about another key
  rcases protocol.turn_cases turn.call turn t.toStores t.calls with ⟨h_view, h_owed⟩ |
    ⟨c, ⟨key', up⟩, h_call, h_owing, h_pending, h_view, h_owed⟩ | ⟨⟨key', up⟩, h_view, h_owed⟩
  · have h_table : (t.turn turn).tableWrites = t.tableWrites := congrArg View.firstWrites h_view
    have h_set : (t.turn turn).setWrites = t.setWrites := congrArg View.secondWrites h_view
    rw [h_table, h_set]
    exact .inl ⟨rfl, rfl, about_perm key h_owed⟩
  · have h_table : (t.turn turn).tableWrites = t.tableWrites ++ [(key', up)] :=
      congrArg View.firstWrites h_view
    have h_set : (t.turn turn).setWrites = t.setWrites := congrArg View.secondWrites h_view
    have h_owed : ((t.turn turn).owed key).Perm (about key ((key', up) :: protocol.owed t.calls)) :=
      about_perm key h_owed
    have h_state : c.state = .writing key' := Call.writing_of_owing h_pending h_owing
    rw [h_table, h_set, about_append]
    -- a write about another key leaves the three lists of this one alone
    by_cases h_key : key' = key
    · subst h_key
      rw [about_cons_self] at h_owed ⊢
      exact .inr (.inl ⟨c, up, h_call, h_state, rfl, rfl, h_owed⟩)
    · rw [about_cons_of_ne h_key] at h_owed ⊢
      exact .inl ⟨List.append_nil _, rfl, h_owed⟩
  · have h_table : (t.turn turn).tableWrites = t.tableWrites := congrArg View.firstWrites h_view
    have h_set : (t.turn turn).setWrites = t.setWrites ++ [(key', up)] :=
      congrArg View.secondWrites h_view
    have h_owed : (t.owed key).Perm (about key ((key', up) :: protocol.owed (t.turn turn).calls)) :=
      about_perm key h_owed
    rw [h_table, h_set, about_append]
    by_cases h_key : key' = key
    · subst h_key
      rw [about_cons_self] at h_owed ⊢
      exact .inr (.inr ⟨up, rfl, rfl, h_owed⟩)
    · rw [about_cons_of_ne h_key] at h_owed ⊢
      exact .inl ⟨rfl, List.append_nil _, h_owed.symm⟩

/-- The set has been written about a key as the table has, but for one write that may be owed. -/
structure Paired (key : GameKey) (t : Tracker) : Prop where
  writes : about key t.tableWrites = about key t.setWrites ++ t.owed key
  owed : (t.owed key).length ≤ 1

theorem Paired.starting (table : BlockedTable) (failure : Option Error) (calls : List (Method × ℤ))
    (key : GameKey) : Paired key (starting table failure calls) := by
  have h_owed : (Tracker.starting table failure calls).owed key = [] := by
    unfold Tracker.owed
    rw [owed_starting, about_nil]
  refine ⟨?_, ?_⟩
  · rw [h_owed]
    rfl
  · rw [h_owed]
    exact Nat.zero_le 1

theorem Paired.turn {key : GameKey} {t : Tracker} (h : Paired key t) {turn : Turn}
    (h_exclusive : t.Exclusive turn) : Paired key (t.turn turn) := by
  have h_writes := h.writes
  have h_len := h.owed
  rcases t.turn_about turn key with ⟨h_table, h_set, h_owed⟩ |
    ⟨c, up, h_call, h_state, h_table, h_set, h_owed⟩ | ⟨up, h_table, h_set, h_owed⟩
  · -- of one write at most there is one order
    have h_same : (t.turn turn).owed key = t.owed key := by
      cases h_old : t.owed key with
      | nil =>
        rw [h_old] at h_owed
        exact h_owed.eq_nil
      | cons up rest =>
        rw [h_old, List.length_cons] at h_len
        obtain rfl : rest = [] := List.length_eq_zero_iff.mp (by omega)
        rw [h_old] at h_owed
        exact List.perm_singleton.mp h_owed
    exact ⟨by rw [h_table, h_set, h_same, h_writes], by rw [h_same]; exact h_len⟩
  · rw [h_exclusive c key h_call h_state] at h_owed h_writes
    have h_one := List.perm_singleton.mp h_owed
    refine ⟨?_, by rw [h_one]; rfl⟩
    rw [h_table, h_set, h_one, h_writes, List.append_nil]
  · have h_none : (t.turn turn).owed key = [] := by
      have h_count := h_owed.length_eq
      rw [List.length_cons] at h_count
      exact List.length_eq_zero_iff.mp (by omega)
    rw [h_none] at h_owed
    refine ⟨?_, by rw [h_none]; exact Nat.zero_le 1⟩
    rw [h_table, h_set, h_none, h_writes, List.perm_singleton.mp h_owed, List.append_nil]

theorem Paired.run {key : GameKey} {t : Tracker} (h : Paired key t) {turns : List Turn}
    (h_exclusive : ∀ before turn after, turns = before ++ turn :: after →
      (t.run before).Exclusive turn) : Paired key (t.run turns) := by
  induction turns generalizing t with
  | nil => exact h
  | cons turn turns ih =>
    refine ih (h.turn (h_exclusive [] turn turns rfl)) fun before turn' after h_turns => ?_
    exact h_exclusive (turn :: before) turn' after (by rw [h_turns]; rfl)

/-- **Exclusive calls agree**: if no call writes the table about a key while another owes a write of
the set about it, and the table could be read at startup, the two stores agree once every call has
returned. -/
theorem blocklist_agrees_of_exclusive (table : BlockedTable) (calls : List (Method × ℤ))
    (turns : List Turn)
    (h_exclusive : ∀ before turn after, turns = before ++ turn :: after →
      ((starting table none calls).run before).Exclusive turn)
    (h_returned : ∀ call ∈ ((starting table none calls).run turns).calls, call.Returned) :
    ((starting table none calls).run turns).blocklist =
      BlockedRepo.list ((starting table none calls).run turns).table := by
  have h_inv := (Inv.starting table none calls).run turns
  -- both stores are what their own writes made of the start, so compare these key by key
  rw [h_inv.list_table, h_inv.blocklist_eq]
  ext key
  -- each table write was followed by its set write before another of the same key
  have h_writes := ((Paired.starting table none calls key).run h_exclusive).writes
  unfold owed at h_writes
  rw [Protocol.owed_returned h_returned, about_nil, List.append_nil] at h_writes
  rw [mem_foldl_put_iff, mem_foldl_put_iff, h_writes]
  rfl

/-! ### Two calls -/

/-- A database with one application, whose primary key is 1. -/
def oneGame : Database :=
  match ApplicationRepo.create Database.empty
    { launcherType := .steam, launcherId := "440", productName := "Team Fortress 2"
      publisher := none, version := none, executablePath := none, launcherExePath := none
      wineprefixPath := none, installedFlatpakRef := none, graphicsPlatform := .unknown
      processArchitecture := .unknown, groupId := none, icons := {}, firstSeenAt := .firstDay 0 } with
  | .ok (_, db) => db
  | .error _ => Database.empty

/-- The application is blocked and unblocked: in each turn, one of the two calls takes a step. -/
def blockUnblock (turns : List ℕ) : Tracker :=
  (starting ⟨[], List.nodup_nil⟩ none [(.blockApplication, 1), (.unblockApplication, 1)]).run
    (turns.map fun call => ⟨call, oneGame, none, .firstDay 1⟩)

/-- One call after the other. -/
theorem blocklist_agrees_iff_serial :
    (blockUnblock [0, 0, 0, 1, 1, 1]).blocklist =
      BlockedRepo.list (blockUnblock [0, 0, 0, 1, 1, 1]).table := by
  have h_calls : (blockUnblock [0, 0, 0, 1, 1, 1]).calls =
      [⟨.blockApplication, 1, .returned (.ok ())⟩, ⟨.unblockApplication, 1, .returned (.ok ())⟩] := by
    decide +kernel
  have h_writes : (blockUnblock [0, 0, 0, 1, 1, 1]).setWrites =
      (blockUnblock [0, 0, 0, 1, 1, 1]).tableWrites := by
    decide +kernel
  -- the two calls came one after the other, so the sets were written in the table's order
  refine (blocklist_agrees_iff _ none _ _ ?_).mpr fun key => ⟨?_, fun _ => Iff.rfl⟩
  · intro call h_call
    have h_mem : call ∈ (blockUnblock [0, 0, 0, 1, 1, 1]).calls := h_call
    rw [h_calls, List.mem_cons, List.mem_singleton] at h_mem
    rcases h_mem with rfl | rfl
    · rfl
    · rfl
  · show (about key (blockUnblock [0, 0, 0, 1, 1, 1]).setWrites).getLast? = _
    rw [h_writes]
    rfl

/-- **Crossed writes**: both calls return, and the application is blocked in memory only. -/
theorem blocklist_disagrees :
    (blockUnblock [0, 1, 0, 1, 1, 0]).calls =
        [⟨.blockApplication, 1, .returned (.ok ())⟩, ⟨.unblockApplication, 1, .returned (.ok ())⟩] ∧
      (blockUnblock [0, 1, 0, 1, 1, 0]).blocklist = {GameKey.steam "440"} ∧
      BlockedRepo.list (blockUnblock [0, 1, 0, 1, 1, 0]).table = ∅ := by
  refine ⟨?_, ?_, ?_⟩
  · decide +kernel
  · decide +kernel
  · decide +kernel

end Tracker

end Ludex
