import Ludex.Lib.Transact

/-!
# Programs, one transaction at a time

A `Transact.Program` runs to its end in one go. A `Resumption` is a program as what it does next, so
that other processes can have their turn between any two of its transactions. `Resumption.run` is
the program it stands for, and `Resumption.next` its next step.

`Resumes p m₀ d₀ used r m d` says that the program `p`, started in `m₀` and `d₀`, has come to `r`
with the fates `used`: whatever the fates to come, it goes on as `r` does. As long as nobody else
writes the store, every step keeps it (`Resumes.next`); a resumption that is done is then the outcome
of the program (`Resumes.returned`, `Resumes.threw`), and one that is killed has left the store that
the program leaves when it dies there (`Resumes.killed`).

Every program built from the operations of `Transact` has a resumption. `HasResumption P p` says so,
with a property `P` of what its transactions do to the store.
-/

namespace Transact

variable {D M ε α β ι : Type}

/-- What a program does next: it is done, it works on its memory, or it runs a transaction, which
leads on from what the store answers or from its failure. -/
inductive Resumption (D M ε α : Type) : Type
  | done (result : Except ε α)
  | get (k : M → Resumption D M ε α)
  | modify (f : M → M) (k : Resumption D M ε α)
  | transact (failed : Resumption D M ε α) (answered : D → Resumption D M ε α) (effect : D → D)

namespace Resumption

/-- The program a resumption stands for. -/
def run : Resumption D M ε α → Program D M ε α
  | done (.ok a), m, d, fates => .returned a m d fates
  | done (.error e), m, d, fates => .threw e m d fates
  | get k, m, d, fates => (k m).run m d fates
  | modify f k, m, d, fates => k.run (f m) d fates
  | transact failed _ _, m, d, .fails :: rest => failed.run m d rest
  | transact _ _ _, _, d, .dies :: _ => .died d
  | transact _ answered effect, m, d, [] => (answered d).run m (effect d) []
  | transact _ answered effect, m, d, .commits :: rest => (answered d).run m (effect d) rest

/-- One step: of the memory, or a transaction that is carried out or fails. -/
def next (r : Resumption D M ε α) (m : M) (d : D) (fails : Bool) :
    Option (Resumption D M ε α × M × D) :=
  match r with
  | done _ => none
  | get k => some (k m, m, d)
  | modify f k => some (k, f m, d)
  | transact failed answered effect => some (if fails then (failed, m, d) else (answered d, m, effect d))

/-- The effects of all transactions have a property. -/
def Effects (P : D → D → Prop) : Resumption D M ε α → Prop
  | done _ => True
  | get k => ∀ m, (k m).Effects P
  | modify _ k => k.Effects P
  | transact failed answered effect =>
    failed.Effects P ∧ (∀ d, (answered d).Effects P) ∧ ∀ d, P d (effect d)

/-- One resumption after another. -/
def bind (f : α → Resumption D M ε β) : Resumption D M ε α → Resumption D M ε β
  | done (.ok a) => f a
  | done (.error e) => done (.error e)
  | get k => get fun m => (k m).bind f
  | modify g k => modify g (k.bind f)
  | transact failed answered effect =>
    transact (failed.bind f) (fun d => (answered d).bind f) effect

/-- Hand on the error as a value. -/
def attempt : Resumption D M ε α → Resumption D M ε (Except ε α)
  | done result => done (.ok result)
  | get k => get fun m => (k m).attempt
  | modify f k => modify f k.attempt
  | transact failed answered effect =>
    transact failed.attempt (fun d => (answered d).attempt) effect

/-! ### The programs they stand for -/

theorem run_bind (r : Resumption D M ε α) (f : α → Resumption D M ε β) :
    (r.bind f).run = r.run >>= fun a => (f a).run := by
  funext m d fates
  show (r.bind f).run m d fates = Program.bind r.run (fun a => (f a).run) m d fates
  -- induction on the program: every constructor does its own step and leaves the rest
  induction r generalizing m d fates with
  | done result =>
    cases result with
    | ok a => rfl
    | error e => rfl
  | get k ih => exact ih m m d fates
  | modify g k ih => exact ih (g m) d fates
  | transact failed answered effect ih_failed ih_answered =>
    -- with no fate left, and on a commit, the body of the call runs
    match fates with
    | [] => exact ih_answered d m (effect d) []
    | .commits :: rest => exact ih_answered d m (effect d) rest
    | .fails :: rest => exact ih_failed m d rest
    | .dies :: _ => rfl

theorem run_attempt (r : Resumption D M ε α) : r.attempt.run = r.run.attempt := by
  funext m d fates
  -- attempting changes only what an error becomes at the end
  induction r generalizing m d fates with
  | done result =>
    cases result with
    | ok a => rfl
    | error e => rfl
  | get k ih => exact ih m m d fates
  | modify g k ih => exact ih (g m) d fates
  -- and an attempted call asks for the same fates
  | transact failed answered effect ih_failed ih_answered =>
    match fates with
    | [] => exact ih_answered d m (effect d) []
    | .commits :: rest => exact ih_answered d m (effect d) rest
    | .fails :: rest => exact ih_failed m d rest
    | .dies :: _ => rfl

theorem effects_bind {P : D → D → Prop} {r : Resumption D M ε α} {f : α → Resumption D M ε β}
    (h : r.Effects P) (h_f : ∀ a, (f a).Effects P) : (r.bind f).Effects P := by
  induction r with
  | done result =>
    cases result with
    | ok a => exact h_f a
    | error e => exact trivial
  | get k ih => exact fun m => ih m (h m)
  | modify g k ih => exact ih h
  | transact failed answered effect ih_failed ih_answered =>
    exact ⟨ih_failed h.1, fun d => ih_answered d (h.2.1 d), h.2.2⟩

theorem effects_attempt {P : D → D → Prop} {r : Resumption D M ε α} (h : r.Effects P) :
    r.attempt.Effects P := by
  induction r with
  | done result => exact trivial
  | get k ih => exact fun m => ih m (h m)
  | modify g k ih => exact ih h
  | transact failed answered effect ih_failed ih_answered =>
    exact ⟨ih_failed h.1, fun d => ih_answered d (h.2.1 d), h.2.2⟩

/-- **A step has one of the effects**, or leaves the store alone, and what is left has them too. -/
theorem Effects.next {P : D → D → Prop} {r r' : Resumption D M ε α} {m m' : M} {d d' : D}
    {fails : Bool} (h : r.Effects P) (h_next : r.next m d fails = some (r', m', d')) :
    r'.Effects P ∧ (d' = d ∨ P d d') := by
  -- a step reads, changes the memory, or is the answer of one call
  cases r with
  | done result => exact nomatch h_next
  | get k =>
    obtain ⟨rfl, rfl, rfl⟩ := Option.some.inj h_next
    exact ⟨h m, Or.inl rfl⟩
  | modify f k =>
    obtain ⟨rfl, rfl, rfl⟩ := Option.some.inj h_next
    exact ⟨h, Or.inl rfl⟩
  -- a call that failed changed nothing, and its effect is the one it declares
  | transact failed answered effect =>
    cases fails with
    | true =>
      obtain ⟨rfl, rfl, rfl⟩ := Option.some.inj h_next
      exact ⟨h.1, Or.inl rfl⟩
    | false =>
      obtain ⟨rfl, rfl, rfl⟩ := Option.some.inj h_next
      exact ⟨h.2.1 d, Or.inr (h.2.2 d)⟩

/-- A transaction that dies leaves the store as it is. -/
theorem store_run_dies (r : Resumption D M ε α) (m : M) (d : D) :
    (r.run m d [.dies]).store = d := by
  induction r generalizing m with
  | done result =>
    cases result with
    | ok a => rfl
    | error e => rfl
  | get k ih => exact ih m m
  | modify f k ih => exact ih (f m)
  | transact failed answered effect => rfl

end Resumption

/-! ### A program in progress -/

/-- The program has come to `r`. -/
def Resumes (p : Program D M ε α) (m₀ : M) (d₀ : D) (used : List Fate) (r : Resumption D M ε α)
    (m : M) (d : D) : Prop :=
  ∀ rest, p m₀ d₀ (used ++ rest) = r.run m d rest

namespace Resumes

variable {p : Program D M ε α} {m₀ m m' : M} {d₀ d d' : D} {used : List Fate}
  {r r' : Resumption D M ε α}

theorem start (h : r.run = p) (m : M) (d : D) : Resumes p m d [] r m d := by
  intro rest
  rw [h]
  rfl

/-- **A step goes on with the program.** -/
theorem next {fails : Bool} (h : Resumes p m₀ d₀ used r m d)
    (h_next : r.next m d fails = some (r', m', d')) :
    ∃ used', Resumes p m₀ d₀ used' r' m' d' := by
  -- a program that goes on has already used what it used
  cases r with
  | done result => exact nomatch h_next
  | get k =>
    obtain ⟨rfl, rfl, rfl⟩ := Option.some.inj h_next
    exact ⟨used, h⟩
  | modify f k =>
    obtain ⟨rfl, rfl, rfl⟩ := Option.some.inj h_next
    exact ⟨used, h⟩
  -- a call uses one fate more, whose answer decides how it goes on
  | transact failed answered effect =>
    refine ⟨used ++ [Fate.failing fails], fun rest => ?_⟩
    rw [List.append_assoc]
    refine (h _).trans ?_
    cases fails with
    | true =>
      obtain ⟨rfl, rfl, rfl⟩ := Option.some.inj h_next
      rfl
    | false =>
      obtain ⟨rfl, rfl, rfl⟩ := Option.some.inj h_next
      rfl

theorem returned {a : α} (h : Resumes p m₀ d₀ used (.done (.ok a)) m d) :
    p m₀ d₀ used = .returned a m d [] := by
  have h_run := h []
  rw [List.append_nil] at h_run
  exact h_run

theorem threw {e : ε} (h : Resumes p m₀ d₀ used (.done (.error e)) m d) :
    p m₀ d₀ used = .threw e m d [] := by
  have h_run := h []
  rw [List.append_nil] at h_run
  exact h_run

/-- A program that is killed leaves the store of a death at this point. -/
theorem killed (h : Resumes p m₀ d₀ used r m d) : (p m₀ d₀ (used ++ [.dies])).store = d := by
  rw [h]
  exact r.store_run_dies m d

end Resumes

/-! ### Programs that have a resumption -/

/-- The program is that of a resumption whose transactions have a property. -/
def HasResumption (P : D → D → Prop) (p : Program D M ε α) : Prop :=
  ∃ r : Resumption D M ε α, r.run = p ∧ r.Effects P

section HasResumption

variable {P : D → D → Prop}

theorem hasResumption_pure (a : α) : HasResumption P (pure a : Program D M ε α) :=
  ⟨.done (.ok a), rfl, trivial⟩

theorem hasResumption_throw (e : ε) : HasResumption P (.throw e : Program D M ε α) :=
  ⟨.done (.error e), rfl, trivial⟩

theorem hasResumption_get : HasResumption P (.get : Program D M ε M) :=
  ⟨.get fun m => .done (.ok m), rfl, fun _ => trivial⟩

theorem hasResumption_modify (f : M → M) : HasResumption P (.modify f : Program D M ε Unit) :=
  ⟨.modify f (.done (.ok ())), rfl, trivial⟩

theorem hasResumption_bind {p : Program D M ε α} {f : α → Program D M ε β}
    (h : HasResumption P p) (h_f : ∀ a, HasResumption P (f a)) : HasResumption P (p >>= f) := by
  obtain ⟨r, rfl, h_r⟩ := h
  choose g h_run h_effects using h_f
  refine ⟨r.bind g, ?_, Resumption.effects_bind h_r h_effects⟩
  rw [Resumption.run_bind]
  congr 1
  funext a
  exact h_run a

theorem hasResumption_attempt {p : Program D M ε α} (h : HasResumption P p) :
    HasResumption P p.attempt := by
  obtain ⟨r, rfl, h_r⟩ := h
  exact ⟨r.attempt, r.run_attempt, Resumption.effects_attempt h_r⟩

/-- The resumption of one transaction. -/
def Resumption.single (failure : ε) (op : D → Except ε (α × D)) : Resumption D M ε α :=
  .transact (.done (.error failure)) (fun d => .done ((op d).map Prod.fst)) fun d =>
    match op d with
    | .ok (_, d') => d'
    | .error _ => d

theorem hasResumption_transact {failure : ε} {op : D → Except ε (α × D)}
    (h_refl : ∀ d, P d d) (h : ∀ d a d', op d = .ok (a, d') → P d d') :
    HasResumption P (.transact failure op : Program D M ε α) := by
  -- a program of one call, whose effect is the operation itself
  refine ⟨.single failure op, ?_, trivial, fun _ => trivial, fun d => ?_⟩
  · funext m d fates
    have h_executed : ∀ rest, (Resumption.done ((op d).map Prod.fst)).run m
        (match op d with
          | .ok (_, d') => d'
          | .error _ => d) rest =
        (match op d with
          | .ok (a, d') => (.returned a m d' rest : Outcome D M ε α)
          | .error e => .threw e m d rest) := by
      intro rest
      cases op d with
      | ok x => rfl
      | error e => rfl
    -- the fate is read, and the call is made or fails
    match fates with
    | [] => exact h_executed []
    | .commits :: rest => exact h_executed rest
    | .fails :: rest => rfl
    | .dies :: _ => rfl
  · show P d (match op d with
      | .ok (_, d') => d'
      | .error _ => d)
    cases h_op : op d with
    | ok x => exact h d x.1 x.2 h_op
    | error e => exact h_refl d

theorem hasResumption_forM {body : ι → Program D M ε Unit} (h : ∀ x, HasResumption P (body x))
    (xs : List ι) : HasResumption P (forM xs body) := by
  induction xs with
  | nil => exact hasResumption_pure ()
  | cons x xs ih =>
    rw [List.forM_cons]
    exact hasResumption_bind (h x) fun _ => ih

/-- **An invariant of the transactions is one of the program**, however it ends. -/
theorem HasResumption.wp {p : Program D M ε α} (h : HasResumption P p) {Inv : D → Prop}
    (h_keep : ∀ d d', P d d' → Inv d → Inv d') (m : M) {d : D} (h_inv : Inv d) :
    wp p (fun _ _ d' => Inv d') Inv m d := by
  obtain ⟨r, rfl, h_r⟩ := h
  -- the effect may change the database only within the invariant
  intro fates
  induction r generalizing m d fates with
  | done result =>
    cases result with
    | ok a => exact h_inv
    | error e => exact h_inv
  | get k ih => exact ih m m h_inv (h_r m) fates
  | modify f k ih => exact ih (f m) h_inv h_r fates
  -- a call that went through, one that failed and one that died
  | transact failed answered effect ih_failed ih_answered =>
    obtain ⟨h_failed, h_answered, h_effect⟩ := h_r
    have h_inv' : Inv (effect d) := h_keep d _ (h_effect d) h_inv
    match fates with
    | [] => exact ih_answered d m h_inv' (h_answered d) []
    | .commits :: rest => exact ih_answered d m h_inv' (h_answered d) rest
    | .fails :: rest => exact ih_failed m h_inv h_failed rest
    | .dies :: _ => exact h_inv

/-- A program whose transactions are all executed does not die. -/
theorem HasResumption.alive {p : Program D M ε α} (h : HasResumption P p) (m : M) (d d' : D) :
    p m d [] ≠ .died d' := by
  obtain ⟨r, rfl, -⟩ := h
  induction r generalizing m d with
  | done result =>
    cases result with
    | ok a => exact fun h_died => nomatch h_died
    | error e => exact fun h_died => nomatch h_died
  | get k ih => exact ih m m d
  | modify f k ih => exact ih (f m) d
  | transact failed answered effect ih_failed ih_answered => exact ih_answered d m (effect d)

end HasResumption

end Transact
