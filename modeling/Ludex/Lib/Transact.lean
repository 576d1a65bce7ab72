import Mathlib.Tactic.Common

/-!
# Programs over a transactional store

A process with a memory works on a store through transactions. Three things can happen to a
transaction: it is executed, it cannot be carried out, or the process dies before it reaches the
store. Which of them happens is the **fate** of the transaction, and a `Program` is a function of
the fates of its transactions. An executed transaction can still be refused by the store. When the
process dies its memory is lost; what is left is the store.

`wp p Q C` is the weakest precondition of a program over all fates, with a postcondition `Q` for its
result and a **crash condition** `C` for the store it leaves when it dies. The rules follow the
construction of a program: `wp_bind`, `wp_modify`, `wp_transact`, `wp_attempt` and, for a loop,
`wp_forM` with an invariant on what is still to do. For transactions there are exact rules as well
(`wp_transact_iff`). Stores, memories, errors and results are
arbitrary types.
-/

namespace Transact

variable {D M ε α β ι : Type}

/-- What happens to a transaction. -/
inductive Fate where
  | commits
  | fails
  | dies
deriving DecidableEq, Repr

/-- How a program ends: with a result or an error, what it leaves in memory and store, and the
fates it has not used; or with the death of the process. -/
inductive Outcome (D M ε α : Type) where
  | returned (a : α) (m : M) (d : D) (rest : List Fate)
  | threw (e : ε) (m : M) (d : D) (rest : List Fate)
  | died (d : D)

/-- The program has come to its end. -/
def Outcome.isReturned : Outcome D M ε α → Bool
  | returned _ _ _ _ => true
  | threw _ _ _ _ | died _ => false

/-- A program of a process with memory `M` over a store `D`. -/
def Program (D M ε α : Type) : Type := M → D → List Fate → Outcome D M ε α

namespace Program

/-- Do nothing. -/
protected def pure (a : α) : Program D M ε α := fun m d fates => .returned a m d fates

/-- One program after another. An error ends the program, with what it has done to the memory. -/
protected def bind (p : Program D M ε α) (f : α → Program D M ε β) : Program D M ε β :=
  fun m d fates =>
    match p m d fates with
    | .returned a m d rest => f a m d rest
    | .threw e m d rest => .threw e m d rest
    | .died d => .died d

instance : Monad (Program D M ε) where
  pure := Program.pure
  bind := Program.bind

instance : LawfulMonad (Program D M ε) := by
  refine LawfulMonad.mk' _ ?_ ?_ ?_
  · intro α p
    funext m d fates
    show Program.bind p (Program.pure ∘ id) m d fates = p m d fates
    unfold Program.bind
    cases p m d fates <;> rfl
  · intro α β a f
    rfl
  · intro α β γ p f g
    funext m d fates
    show Program.bind (Program.bind p f) g m d fates =
      Program.bind p (fun a => Program.bind (f a) g) m d fates
    unfold Program.bind
    cases p m d fates <;> rfl

/-- Read the memory. -/
def get : Program D M ε M := fun m d fates => .returned m m d fates

/-- Write the memory. -/
def modify (f : M → M) : Program D M ε Unit := fun m d fates => .returned () (f m) d fates

/-- End with an error. -/
def throw (e : ε) : Program D M ε α := fun m d fates => .threw e m d fates

/-- Run a program and hand on its error as a value. -/
def attempt (p : Program D M ε α) : Program D M ε (Except ε α) := fun m d fates =>
  match p m d fates with
  | .returned a m d rest => .returned (.ok a) m d rest
  | .threw e m d rest => .returned (.error e) m d rest
  | .died d => .died d

/-- Run one transaction. It leaves the store alone when it is refused and when it cannot be carried
out, which is reported as `failure`. A transaction without a fate is executed. -/
def transact (failure : ε) (op : D → Except ε (α × D)) : Program D M ε α := fun m d fates =>
  match fates with
  | .fails :: rest => .threw failure m d rest
  | .dies :: _ => .died d
  | [] | .commits :: _ =>
    match op d with
    | .ok (a, d') => .returned a m d' fates.tail
    | .error e => .threw e m d fates.tail

end Program

/-! ### Weakest preconditions -/

/-- The postcondition of an outcome. -/
def Outcome.Satisfies (Q : Except ε α → M → D → Prop) (C : D → Prop) : Outcome D M ε α → Prop
  | .returned a m d _ => Q (.ok a) m d
  | .threw e m d _ => Q (.error e) m d
  | .died d => C d

/-- **The weakest precondition.** Whatever the fates of its transactions, the program ends in `Q`,
or dies in `C`. -/
def wp (p : Program D M ε α) (Q : Except ε α → M → D → Prop) (C : D → Prop) (m : M) (d : D) : Prop :=
  ∀ fates, (p m d fates).Satisfies Q C

section Rules

variable {p : Program D M ε α} {Q Q' : Except ε α → M → D → Prop} {C C' : D → Prop} {m : M} {d : D}

theorem wp_returned (h : wp p Q C m d) {a : α} {m' : M} {d' : D} {fates rest : List Fate}
    (h_run : p m d fates = .returned a m' d' rest) : Q (.ok a) m' d' := by
  have h_sat := h fates
  rwa [h_run] at h_sat

theorem wp_threw (h : wp p Q C m d) {e : ε} {m' : M} {d' : D} {fates rest : List Fate}
    (h_run : p m d fates = .threw e m' d' rest) : Q (.error e) m' d' := by
  have h_sat := h fates
  rwa [h_run] at h_sat

theorem wp_died (h : wp p Q C m d) {d' : D} {fates : List Fate} (h_run : p m d fates = .died d') :
    C d' := by
  have h_sat := h fates
  rwa [h_run] at h_sat

/-- **The rule of consequence.** -/
theorem wp_mono (h : wp p Q C m d) (hQ : ∀ r m d, Q r m d → Q' r m d) (hC : ∀ d, C d → C' d) :
    wp p Q' C' m d := by
  intro fates
  cases h_run : p m d fates with
  | returned a m' d' rest => exact hQ _ _ _ (wp_returned h h_run)
  | threw e m' d' rest => exact hQ _ _ _ (wp_threw h h_run)
  | died d' => exact hC _ (wp_died h h_run)

theorem wp_pure {a : α} (h : Q (.ok a) m d) : wp (pure a) Q C m d := fun _ => h

theorem wp_throw {e : ε} (h : Q (.error e) m d) : wp (.throw e) Q C m d := fun _ => h

theorem wp_get {Q : Except ε M → M → D → Prop} (h : Q (.ok m) m d) : wp .get Q C m d := fun _ => h

theorem wp_modify {Q : Except ε Unit → M → D → Prop} {f : M → M} (h : Q (.ok ()) (f m) d) :
    wp (.modify f) Q C m d := fun _ => h

/-- The postcondition of a part of a program: `P` when it returns, that of the whole when it
throws. -/
def onReturn (P : α → M → D → Prop) (Q : Except ε β → M → D → Prop) : Except ε α → M → D → Prop
  | .ok a, m, d => P a m d
  | .error e, m, d => Q (.error e) m d

/-- **The rule of sequence.** -/
theorem wp_bind {f : α → Program D M ε β} {Q : Except ε β → M → D → Prop}
    (h : wp p (onReturn (fun a => wp (f a) Q C) Q) C m d) : wp (p >>= f) Q C m d := by
  intro fates
  change (Program.bind p f m d fates).Satisfies Q C
  unfold Program.bind
  cases h_run : p m d fates with
  | returned a m' d' rest => exact wp_returned h h_run rest
  | threw e m' d' rest => exact wp_threw h h_run
  | died d' => exact wp_died h h_run

/-- A program that cannot fail, before another one. -/
theorem wp_get_bind {f : M → Program D M ε β} {Q : Except ε β → M → D → Prop}
    (h : wp (f m) Q C m d) : wp (.get >>= f) Q C m d := wp_bind (wp_get h)

theorem wp_modify_bind {g : M → M} {f : Unit → Program D M ε β} {Q : Except ε β → M → D → Prop}
    (h : wp (f ()) Q C (g m) d) : wp (.modify g >>= f) Q C m d := wp_bind (wp_modify h)

theorem wp_attempt {Q : Except ε (Except ε α) → M → D → Prop}
    (h : wp p (fun r m d => Q (.ok r) m d) C m d) : wp p.attempt Q C m d := by
  intro fates
  unfold Program.attempt
  cases h_run : p m d fates with
  | returned a m' d' rest => exact wp_returned h h_run
  | threw e m' d' rest => exact wp_threw h h_run
  | died d' => exact wp_died h h_run

/-- **The rule of a transaction.** It is executed, refused or not carried out, or the process is
dead. -/
theorem wp_transact {failure : ε} {op : D → Except ε (α × D)}
    (h_ok : ∀ a d', op d = .ok (a, d') → Q (.ok a) m d')
    (h_error : ∀ e, op d = .error e → Q (.error e) m d) (h_failure : Q (.error failure) m d)
    (h_crash : C d) : wp (.transact failure op) Q C m d := by
  intro fates
  -- with no fate left, and when it commits, what the store answers decides
  have h_executed : ∀ rest : List Fate,
      (match op d with
        | .ok (a, d') => (.returned a m d' rest : Outcome D M ε α)
        | .error e => .threw e m d rest).Satisfies Q C := by
    intro rest
    cases h_op : op d with
    | ok x => exact h_ok x.1 x.2 h_op
    | error e => exact h_error e h_op
  cases fates with
  | nil => exact h_executed []
  | cons fate rest =>
    cases fate with
    | commits => exact h_executed rest
    | fails => exact h_failure
    | dies => exact h_crash

/-- **The rule of a transaction is exact**: each of its fates can be met. -/
theorem wp_transact_iff {failure : ε} {op : D → Except ε (α × D)} :
    wp (.transact failure op) Q C m d ↔
      (∀ a d', op d = .ok (a, d') → Q (.ok a) m d') ∧ (∀ e, op d = .error e → Q (.error e) m d) ∧
        Q (.error failure) m d ∧ C d := by
  -- the four fates of the call, one for each way it can end
  refine ⟨?_, ?_⟩
  · intro h
    refine ⟨fun a d' h_op => ?_, fun e h_op => ?_, h [.fails], h [.dies]⟩
    · -- with no fate left the call executes
      have h_fates := h []
      simp only [Program.transact, h_op] at h_fates
      exact h_fates
    · have h_fates := h []
      simp only [Program.transact, h_op] at h_fates
      exact h_fates
  · rintro ⟨h_ok, h_error, h_failure, h_crash⟩
    exact wp_transact h_ok h_error h_failure h_crash

/-- What follows a transaction meets all its own fates. -/
theorem wp_transact_bind_iff {failure : ε} {op : D → Except ε (α × D)} {f : α → Program D M ε β}
    {Q : Except ε β → M → D → Prop} :
    wp (.transact failure op >>= f) Q C m d ↔
      (∀ a d', op d = .ok (a, d') → wp (f a) Q C m d') ∧
        (∀ e, op d = .error e → Q (.error e) m d) ∧ Q (.error failure) m d ∧ C d := by
  refine ⟨?_, ?_⟩
  · intro h
    -- the same four ways, with the rest of the program after the commit
    refine ⟨fun a d' h_op fates => ?_, fun e h_op => ?_, h [.fails], h [.dies]⟩
    · have h_fates := h (.commits :: fates)
      change (Program.bind _ f m d (.commits :: fates)).Satisfies Q C at h_fates
      simp only [Program.bind, Program.transact, h_op] at h_fates
      exact h_fates
    · have h_fates := h []
      change (Program.bind _ f m d []).Satisfies Q C at h_fates
      simp only [Program.bind, Program.transact, h_op] at h_fates
      exact h_fates
  · rintro ⟨h_ok, h_error, h_failure, h_crash⟩
    exact wp_bind (wp_transact h_ok h_error h_failure h_crash)

/-- A transaction whose errors are ignored, before the rest of a program. -/
theorem wp_attempt_transact_bind_iff {failure : ε} {op : D → Except ε (α × D)}
    {f : Except ε α → Program D M ε β} {Q : Except ε β → M → D → Prop} :
    wp (.attempt (.transact failure op) >>= f) Q C m d ↔
      (∀ a d', op d = .ok (a, d') → wp (f (.ok a)) Q C m d') ∧
        (∀ e, op d = .error e → wp (f (.error e)) Q C m d) ∧
          wp (f (.error failure)) Q C m d ∧ C d := by
  -- an error that is answered does not end the program
  refine ⟨?_, ?_⟩
  · intro h
    refine ⟨fun a d' h_op fates => ?_, fun e h_op fates => ?_, fun fates => ?_, h [.dies]⟩
    · -- a commit is run as the program with the remaining fates
      have h_fates := h (.commits :: fates)
      change (Program.bind _ f m d (.commits :: fates)).Satisfies Q C at h_fates
      simp only [Program.bind, Program.attempt, Program.transact, h_op] at h_fates
      exact h_fates
    · have h_fates := h (.commits :: fates)
      change (Program.bind _ f m d (.commits :: fates)).Satisfies Q C at h_fates
      simp only [Program.bind, Program.attempt, Program.transact, h_op] at h_fates
      exact h_fates
    · exact h (.fails :: fates)
  · rintro ⟨h_ok, h_error, h_failure, h_crash⟩
    exact wp_bind (wp_attempt (wp_transact h_ok h_error h_failure h_crash))

/-- **The rule of a loop.** The invariant is on what is still to do. -/
theorem wp_forM {body : ι → Program D M ε Unit} {Q : Except ε Unit → M → D → Prop}
    (Inv : List ι → M → D → Prop)
    (h_body : ∀ x xs m d, Inv (x :: xs) m d →
      wp (body x) (onReturn (fun _ => Inv xs) Q) C m d)
    (h_done : ∀ m d, Inv [] m d → Q (.ok ()) m d) {xs : List ι} (h : Inv xs m d) :
    wp (forM xs body) Q C m d := by
  induction xs generalizing m d with
  | nil => exact wp_pure (h_done m d h)
  | cons x xs ih =>
    rw [List.forM_cons]
    apply wp_bind
    refine wp_mono (h_body x xs m d h) ?_ fun _ h_crash => h_crash
    intro r m d h_post
    cases r with
    | error e => exact h_post -- the error ends the loop
    | ok _ => exact ih h_post

end Rules

/-! ### Loops with known fates -/

/-- The store a program leaves. -/
def Outcome.store : Outcome D M ε α → D
  | .returned _ _ d _ => d
  | .threw _ _ d _ => d
  | .died d => d

/-- A continuation that leaves the store alone. -/
theorem store_bind {p : Program D M ε α} {f : α → Program D M ε β}
    (h : ∀ a m d rest, (f a m d rest).store = d) (m : M) (d : D) (fates : List Fate) :
    ((p >>= f) m d fates).store = (p m d fates).store := by
  show (Program.bind p f m d fates).store = _
  unfold Program.bind
  cases p m d fates with
  | returned a m d rest => exact h a m d rest
  | threw e m d rest => rfl
  | died d => rfl

theorem store_attempt (p : Program D M ε α) (m : M) (d : D) (fates : List Fate) :
    (p.attempt m d fates).store = (p m d fates).store := by
  unfold Program.attempt
  cases p m d fates <;> rfl

/-- The next transaction is executed. -/
def executes : List Fate → Bool
  | [] | .commits :: _ => true
  | .fails :: _ | .dies :: _ => false

/-- What a transaction leaves. -/
theorem store_transact (failure : ε) (op : D → Except ε (α × D)) (m : M) (d : D)
    (fates : List Fate) :
    (Program.transact failure op m d fates).store =
      if executes fates then
        match op d with
        | .ok (_, d') => d'
        | .error _ => d
      else d := by
  -- a call that went through and one that failed leave the same store, if it ran at all
  have h_executed : ∀ rest : List Fate,
      (match op d with
        | .ok (a, d') => (.returned a m d' rest : Outcome D M ε α)
        | .error e => .threw e m d rest).store =
        match op d with
        | .ok (_, d') => d'
        | .error _ => d := by
    intro rest
    cases op d <;> rfl
  match fates with
  | [] => exact h_executed []
  | .commits :: rest => exact h_executed rest
  | .fails :: rest => rfl
  | .dies :: rest => rfl

/-- The fate of a transaction that fails or is executed. -/
def Fate.failing (fails : Bool) : Fate := if fails then .fails else .commits

/-- The part of a loop before the first transaction that fails. -/
def reached (fails : ι → Bool) (xs : List ι) : List ι := xs.takeWhile fun x => !fails x

/-- **A loop of transactions ends at the first that fails.** What is left is the effect of those
before it. -/
theorem forM_transact_store (failure : ε) (op : ι → D → Except ε (Unit × D)) (effect : ι → D → D)
    (h_op : ∀ x d, op x d = .ok ((), effect x d)) (fails : ι → Bool) (xs : List ι) (m : M) (d : D) :
    (forM xs (fun x => Program.transact failure (op x)) m d
      (xs.map fun x => Fate.failing (fails x))).store =
      (reached fails xs).foldl (fun d x => effect x d) d := by
  induction xs generalizing d with
  -- induction on the list; each call of the loop has a fate of its own
  | nil => rfl
  | cons x xs ih =>
    rw [List.forM_cons, List.map_cons]
    change (Program.bind _ _ m d _).store = _
    -- a call that fails ends the loop, so nothing of the rest happens
    cases h_fails : fails x with
    | true =>
      unfold reached
      rw [List.takeWhile_cons_of_neg (by rw [h_fails]; decide)]
      rfl
    -- one that goes through leaves the store to the rest
    | false =>
      unfold reached
      rw [List.takeWhile_cons_of_pos (by rw [h_fails]; decide)]
      have h_first : Program.transact failure (op x) m d
          (Fate.failing false :: xs.map fun x => Fate.failing (fails x)) =
            .returned () m (effect x d) (xs.map fun x => Fate.failing (fails x)) := by
        simp only [Fate.failing, Program.transact, h_op]
        rfl
      unfold Program.bind
      rw [h_first]
      exact ih (effect x d)

/-- **Who is reached.** Every iteration that would not fail is reached, or is as if it were, exactly
when none that fails comes before one that is neither. -/
theorem forall_reached_iff {fails : ι → Bool} {As : ι → Prop} {xs : List ι} (h_nodup : xs.Nodup) :
    (∀ x ∈ xs, fails x = false → x ∈ reached fails xs ∨ As x) ↔
      xs.Pairwise fun x y => fails x = true → fails y = true ∨ As y := by
  induction xs with
  | nil => exact ⟨fun _ => .nil, fun _ x hx => absurd hx List.not_mem_nil⟩
  | cons x xs ih =>
    obtain ⟨h_fresh, h_rest⟩ := List.nodup_cons.mp h_nodup
    rw [List.pairwise_cons]
    cases h_fails : fails x with
    | true =>
      -- nothing is reached
      have h_none : reached fails (x :: xs) = [] := by
        unfold reached
        rw [List.takeWhile_cons_of_neg (by rw [h_fails]; decide)]
      rw [h_none]
      refine ⟨fun h => ?_, fun h y hy h_y => Or.inr ?_⟩
      · have h_as : ∀ y ∈ xs, fails y = true ∨ As y := by
          intro y hy
          cases h_y : fails y with
          | true => exact Or.inl rfl
          | false =>
            exact (h y (List.mem_cons_of_mem x hy) h_y).imp (fun h_mem => absurd h_mem List.not_mem_nil)
              fun h_as => h_as
        refine ⟨fun y hy _ => h_as y hy, ?_⟩
        exact List.pairwise_of_forall_mem_list fun y _ z hz _ => h_as z hz
      · rcases List.mem_cons.mp hy with rfl | hy
        · exact absurd h_fails (Bool.eq_false_iff.mp h_y)
        · exact (h.1 y hy rfl).resolve_left (Bool.eq_false_iff.mp h_y)
    | false =>
      have h_some : reached fails (x :: xs) = x :: reached fails xs := by
        unfold reached
        rw [List.takeWhile_cons_of_pos (by rw [h_fails]; decide)]
      rw [h_some]
      refine ⟨fun h => ⟨fun y _ h_false => absurd h_false Bool.false_ne_true, ?_⟩, ?_⟩
      · refine (ih h_rest).mp fun y hy h_y => ?_
        refine (h y (List.mem_cons_of_mem x hy) h_y).imp_left fun h_mem => ?_
        rcases List.mem_cons.mp h_mem with rfl | h_mem
        · exact absurd hy h_fresh
        · exact h_mem
      · rintro ⟨-, h_pairs⟩ y hy h_y
        rcases List.mem_cons.mp hy with rfl | hy
        · exact Or.inl List.mem_cons_self
        · exact ((ih h_rest).mpr h_pairs y hy h_y).imp_left fun h_mem => List.mem_cons_of_mem x h_mem

end Transact
