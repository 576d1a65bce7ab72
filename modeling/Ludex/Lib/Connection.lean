import Ludex.Lib.Transact

/-!
# Transactions made of statements

`Transact` takes a transaction as one step. Here it is taken apart. A connection has, while a
transaction is open, a working copy beside what is committed; a statement works on the copy, a
commit publishes it, and a rollback, the end of the scope or the death of the process lose it. Every
statement has a fate of its own.

`Implements failure p f` says that in an open transaction the program `p` does to the working copy
what the function `f` does, as long as its statements are carried out, and never touches what is
committed. The rules follow the construction of a program (`implements_bind`,
`implements_statement`, `implements_forM`), and `transaction_outcome` is what they are for: a
transaction has the effect of its function or none, whatever happens to its statements.
-/

namespace Transact

variable {D ε α β ι : Type}

/-- A connection to a store: what is committed, and the working copy of the open transaction. -/
structure Connection (D : Type) where
  committed : D
  working : Option D

/-- A program over a connection. -/
abbrev Method (D ε α : Type) : Type := Program (Connection D) Unit ε α

/-- How the body of a transaction ends: with a commit, or with a rollback and then a result. -/
inductive Ending (ε α : Type) where
  | commit (a : α)
  | rollback (r : Except ε α)

namespace Method

/-- Open a transaction. -/
def begin (failure : ε) : Method D ε Unit :=
  .transact failure fun c => .ok ((), ⟨c.committed, some c.committed⟩)

/-- One statement. Outside a transaction it is committed at once. A refused statement changes
nothing. -/
def statement (failure : ε) (op : D → Except ε (α × D)) : Method D ε α :=
  .transact failure fun c =>
    match c.working with
    | some w => (op w).map fun r => (r.1, ⟨c.committed, some r.2⟩)
    | none => (op c.committed).map fun r => (r.1, ⟨r.2, none⟩)

/-- Publish the working copy. -/
def commit (failure : ε) : Method D ε Unit :=
  .transact failure fun c => .ok ((), ⟨c.working.getD c.committed, none⟩)

/-- Give the working copy up. -/
def rollback (failure : ε) : Method D ε Unit :=
  .transact failure fun c => .ok ((), ⟨c.committed, none⟩)

/-- Run a part of a program, and drop the transaction that it leaves open, if any. -/
def dropping (p : Method D ε α) : Method D ε α := fun m c fates =>
  match p m c fates with
  | .returned a m c rest => .returned a m ⟨c.committed, none⟩ rest
  | .threw e m c rest => .threw e m ⟨c.committed, none⟩ rest
  | .died c => .died c

/-- End a transaction as its body says. -/
def conclude (failure : ε) : Ending ε α → Method D ε α
  | .commit a => do
    commit failure
    return a
  | .rollback r => do
    rollback failure
    match r with
    | .ok a => return a
    | .error e => .throw e

/-- A transaction. An error on the way leaves its scope. -/
def transaction (failure : ε) (body : Method D ε (Ending ε α)) : Method D ε α :=
  dropping (begin failure >>= fun _ => body >>= conclude failure)

end Method

/-! ### What a program does to the working copy -/

/-- Some statement is not carried out. -/
def Disturbed (fates : List Fate) : Prop := ∃ fate ∈ fates, fate ≠ .commits

theorem Disturbed.mono {fates rest : List Fate} (h_rest : rest ⊆ fates) (h : Disturbed rest) :
    Disturbed fates := by
  obtain ⟨fate, h_mem, h_ne⟩ := h
  exact ⟨fate, h_rest h_mem, h_ne⟩

/-- An outcome in an open transaction, against what was to be done to the working copy. -/
inductive Follows (failure : ε) (committed : D) (result : Except ε (α × D)) (fates : List Fate) :
    Outcome (Connection D) Unit ε α → Prop
  | returned {a : α} {w : D} {rest : List Fate} : result = .ok (a, w) → rest ⊆ fates →
      Follows failure committed result fates (.returned a () ⟨committed, some w⟩ rest)
  | refused {e : ε} {c : Connection D} {rest : List Fate} : result = .error e →
      c.committed = committed → Follows failure committed result fates (.threw e () c rest)
  | failed {c : Connection D} {rest : List Fate} : Disturbed fates →
      c.committed = committed → Follows failure committed result fates (.threw failure () c rest)
  | died {c : Connection D} : Disturbed fates → c.committed = committed →
      Follows failure committed result fates (.died c)

/-- In an open transaction the program does what the function does. -/
def Implements (failure : ε) (p : Method D ε α) (f : D → Except ε (α × D)) : Prop :=
  ∀ committed w fates, Follows failure committed (f w) fates (p () ⟨committed, some w⟩ fates)

/-- What a transaction of `Transact` does: it is executed, or something happens to it. -/
theorem transact_run {S M : Type} (failure : ε) (op : S → Except ε (α × S)) (m : M) (d : S)
    (fates : List Fate) :
    (∃ rest, rest ⊆ fates ∧ Program.transact failure op m d fates =
      match op d with
      | .ok (a, d') => .returned a m d' rest
      | .error e => .threw e m d rest) ∨
    Disturbed fates ∧ ((∃ rest, Program.transact failure op m d fates = .threw failure m d rest) ∨
      Program.transact failure op m d fates = .died d) := by
  have h_disturbed : ∀ fate rest, fate ≠ Fate.commits → Disturbed (fate :: rest) :=
    fun fate rest h_ne => ⟨fate, List.mem_cons_self, h_ne⟩
  unfold Program.transact
  cases fates with
  | nil =>
    refine Or.inl ⟨[], List.Subset.refl _, ?_⟩
    cases op d <;> rfl
  | cons fate rest =>
    cases fate with
    | commits =>
      refine Or.inl ⟨rest, List.subset_cons_self _ _, ?_⟩
      cases op d <;> rfl
    | fails => exact Or.inr ⟨h_disturbed _ _ (by decide), Or.inl ⟨rest, rfl⟩⟩
    | dies => exact Or.inr ⟨h_disturbed _ _ (by decide), Or.inr rfl⟩

/-- A statement that ends or opens a transaction is not refused. -/
theorem transact_run_ok {S M : Type} (failure : ε) (op : S → Except ε (α × S)) (d d' : S) {a : α}
    (h_op : op d = .ok (a, d')) (m : M) (fates : List Fate) :
    (∃ rest, rest ⊆ fates ∧ Program.transact failure op m d fates = .returned a m d' rest) ∨
    Disturbed fates ∧ ((∃ rest, Program.transact failure op m d fates = .threw failure m d rest) ∨
      Program.transact failure op m d fates = .died d) := by
  have h_run := transact_run failure op m d fates
  rw [h_op] at h_run
  exact h_run

theorem Program.bind_run {S M : Type} (p : Program S M ε α) (q : α → Program S M ε β) (m : M) (d : S)
    (fates : List Fate) :
    (p >>= q) m d fates =
      match p m d fates with
      | .returned a m d rest => q a m d rest
      | .threw e m d rest => .threw e m d rest
      | .died d => .died d := by
  show Program.bind p q m d fates = _
  unfold Program.bind
  cases p m d fates <;> rfl

section Rules

variable {failure : ε}

theorem implements_pure (a : α) : Implements failure (pure a : Method D ε α) fun w => .ok (a, w) :=
  fun _ _ _ => .returned rfl (List.Subset.refl _)

theorem implements_throw (e : ε) :
    Implements failure (.throw e : Method D ε α) fun _ => .error e :=
  fun _ _ _ => .refused rfl rfl

/-- One statement does to the working copy what it would do to the store. -/
theorem implements_statement (op : D → Except ε (α × D)) :
    Implements failure (.statement failure op) op := by
  intro committed w fates
  unfold Method.statement
  -- the statement runs on the working copy, and the committed store waits
  rcases transact_run failure (fun c : Connection D =>
      match c.working with
      | some w => (op w).map fun r => (r.1, (⟨c.committed, some r.2⟩ : Connection D))
      | none => (op c.committed).map fun r => (r.1, ⟨r.2, none⟩)) () ⟨committed, some w⟩ fates with
    ⟨rest, h_rest, h_run⟩ | ⟨h_disturbed, ⟨rest, h_run⟩ | h_run⟩
  · rw [h_run]
    cases h_op : op w with
    | ok r =>
      simp only [h_op, Except.map]
      exact .returned rfl h_rest
    | error e =>
      simp only [h_op, Except.map]
      exact .refused rfl rfl
  · rw [h_run]
    exact .failed h_disturbed rfl
  · rw [h_run]
    exact .died h_disturbed rfl

/-- What disturbs the rest of a program disturbs the program. -/
theorem Follows.mono {committed : D} {result : Except ε (α × D)} {fates rest : List Fate}
    (h_rest : rest ⊆ fates) {o : Outcome (Connection D) Unit ε α}
    (h : Follows failure committed result rest o) : Follows failure committed result fates o := by
  cases h with
  | returned h_result h_left => exact .returned h_result fun x hx => h_rest (h_left hx)
  | refused h_result h_committed => exact .refused h_result h_committed
  | failed h_disturbed h_committed => exact .failed (h_disturbed.mono h_rest) h_committed
  | died h_disturbed h_committed => exact .died (h_disturbed.mono h_rest) h_committed

/-- **The rule of sequence.** -/
theorem implements_bind {p : Method D ε α} {q : α → Method D ε β} {f : D → Except ε (α × D)}
    {g : α → D → Except ε (β × D)} (h_p : Implements failure p f)
    (h_q : ∀ a, Implements failure (q a) (g a)) :
    Implements failure (p >>= q) fun w => f w >>= fun r => g r.1 r.2 := by
  intro committed w fates
  -- the first method ends in one of four ways
  rw [Program.bind_run]
  have h_first := h_p committed w fates
  generalize p () ⟨committed, some w⟩ fates = o at h_first
  cases h_first with
  -- only one that returned goes on to the second
  | returned h_result h_rest =>
    simp only [h_result]
    exact (h_q _ committed _ _).mono h_rest
  | refused h_result h_committed =>
    simp only [h_result]
    exact .refused rfl h_committed
  | failed h_disturbed h_committed => exact .failed h_disturbed h_committed
  | died h_disturbed h_committed => exact .died h_disturbed h_committed

/-- A program is described up to what its function returns. -/
theorem Implements.congr {p : Method D ε α} {f g : D → Except ε (α × D)}
    (h : Implements failure p f) (h_eq : ∀ w, f w = g w) : Implements failure p g := by
  rwa [← funext h_eq]

/-- **The rule of a loop.** -/
theorem implements_forM {body : ι → Method D ε Unit} {step : D → ι → Except ε D}
    (h_body : ∀ x, Implements failure (body x) fun w => (step w x).map fun w => ((), w))
    (xs : List ι) :
    Implements failure (forM xs body) fun w => (xs.foldlM step w).map fun w => ((), w) := by
  induction xs with
  | nil => exact implements_pure ()
  | cons x xs ih =>
    rw [List.forM_cons]
    refine (implements_bind (h_body x) fun _ => ih).congr fun w => ?_
    rw [List.foldlM_cons]
    cases step w x <;> rfl

end Rules

/-! ### Whole transactions -/

/-- What is left when the body of a transaction has come to an end. -/
def Ending.settle (d : D) : Ending ε α × D → Except ε (α × D)
  | (.commit a, w) => .ok (a, w)
  | (.rollback r, _) => r.map fun a => (a, d)

/-- An outcome of a transaction on the store `d`, against the result it should have. -/
inductive Settles (failure : ε) (d : D) (result : Except ε (α × D)) (fates : List Fate) :
    Outcome (Connection D) Unit ε α → Prop
  | returned {a : α} {d' : D} {rest : List Fate} : result = .ok (a, d') →
      Settles failure d result fates (.returned a () ⟨d', none⟩ rest)
  | refused {e : ε} {rest : List Fate} : result = .error e →
      Settles failure d result fates (.threw e () ⟨d, none⟩ rest)
  | failed {rest : List Fate} : Disturbed fates →
      Settles failure d result fates (.threw failure () ⟨d, none⟩ rest)
  | died {c : Connection D} : Disturbed fates → c.committed = d →
      Settles failure d result fates (.died c)

section Transactions

variable {failure : ε} {d : D}

theorem Settles.mono {result : Except ε (α × D)} {fates rest : List Fate} (h_rest : rest ⊆ fates)
    {o : Outcome (Connection D) Unit ε α} (h : Settles failure d result rest o) :
    Settles failure d result fates o := by
  cases h with
  | returned h_result => exact .returned h_result
  | refused h_result => exact .refused h_result
  | failed h_disturbed => exact .failed (h_disturbed.mono h_rest)
  | died h_disturbed h_committed => exact .died (h_disturbed.mono h_rest) h_committed

/-- The drop of the open transaction at the end of a scope. -/
def Outcome.drop : Outcome (Connection D) Unit ε α → Outcome (Connection D) Unit ε α
  | .returned a m c rest => .returned a m ⟨c.committed, none⟩ rest
  | .threw e m c rest => .threw e m ⟨c.committed, none⟩ rest
  | .died c => .died c

theorem Method.dropping_run (p : Method D ε α) (c : Connection D) (fates : List Fate) :
    Method.dropping p () c fates = (p () c fates).drop := rfl

/-- The end of a transaction: a commit publishes the working copy, a rollback gives it up. -/
theorem conclude_settles (w : D) (ending : Ending ε α) (fates : List Fate) :
    Settles failure d (Ending.settle d (ending, w)) fates
      (Method.conclude failure ending () ⟨d, some w⟩ fates).drop := by
  cases ending with
  -- a commit makes the working copy the store, a rollback drops it
  | commit a =>
    rcases transact_run_ok failure
      (fun c : Connection D => .ok ((), ⟨c.working.getD c.committed, none⟩))
      ⟨d, some w⟩ ⟨w, none⟩ rfl () fates with
      ⟨rest, -, h_run⟩ | ⟨h_disturbed, ⟨rest, h_run⟩ | h_run⟩
    · simp only [Method.conclude, Method.commit, Program.bind_run, h_run]
      exact .returned rfl
    · simp only [Method.conclude, Method.commit, Program.bind_run, h_run]
      -- either may fail or die with the connection
      exact .failed h_disturbed
    · simp only [Method.conclude, Method.commit, Program.bind_run, h_run]
      exact .died h_disturbed rfl
  | rollback r =>
    rcases transact_run_ok failure (fun c : Connection D => .ok ((), ⟨c.committed, none⟩))
      ⟨d, some w⟩ ⟨d, none⟩ rfl () fates with
      ⟨rest, -, h_run⟩ | ⟨h_disturbed, ⟨rest, h_run⟩ | h_run⟩
    · simp only [Method.conclude, Method.rollback, Program.bind_run, h_run]
      cases r with
      | ok a => exact .returned rfl
      | error e => exact .refused rfl
    · simp only [Method.conclude, Method.rollback, Program.bind_run, h_run]
      exact .failed h_disturbed
    · simp only [Method.conclude, Method.rollback, Program.bind_run, h_run]
      exact .died h_disturbed rfl

/-- **A transaction is atomic.** Whatever happens to its statements, it has the effect of its
function, or it leaves what is committed alone; and it fails only if its function does or a
statement is not carried out. -/
theorem transaction_settles {body : Method D ε (Ending ε α)}
    {f : D → Except ε (Ending ε α × D)} (h_body : Implements failure body f) (d : D)
    (fates : List Fate) :
    Settles failure d (f d >>= Ending.settle d) fates
      (Method.transaction failure body () ⟨d, none⟩ fates) := by
  rw [Method.transaction, Method.dropping_run, Program.bind_run, Method.begin]
  rcases transact_run_ok failure
    (fun c : Connection D => .ok ((), ⟨c.committed, some c.committed⟩))
    ⟨d, none⟩ ⟨d, some d⟩ rfl () fates with
    ⟨rest, h_rest, h_run⟩ | ⟨h_disturbed, ⟨rest, h_run⟩ | h_run⟩
  · simp only [h_run, Program.bind_run]
    have h_first := h_body d d rest
    generalize body () ⟨d, some d⟩ rest = o at h_first
    cases h_first with
    | returned h_result h_left =>
      -- the body has come to its end, and a commit or a rollback follows
      simp only [h_result]
      exact (conclude_settles _ _ _).mono fun x hx => h_rest (h_left hx)
    | @refused e c left h_result h_committed =>
      obtain ⟨committed, working⟩ := c
      obtain rfl : committed = d := h_committed
      simp only [h_result]
      exact .refused rfl
    | @failed c left h_disturbed h_committed =>
      obtain ⟨committed, working⟩ := c
      obtain rfl : committed = d := h_committed
      exact .failed (h_disturbed.mono h_rest)
    | died h_disturbed h_committed => exact .died (h_disturbed.mono h_rest) h_committed
  · simp only [h_run]
    exact .failed h_disturbed
  · simp only [h_run]
    exact .died h_disturbed rfl

end Transactions

end Transact
