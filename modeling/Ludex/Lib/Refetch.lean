import Ludex.Lib.Run

/-!
# Pages that fetch again

A reader shows what it has fetched from a server. It fetches again when a signal tells that something
has changed, when it is pointed at another subject, and when it pleases. A fetch is a row of
questions that the server answers one at a time, so that some of its answers are older than others;
several fetches may be under way, and each that comes back replaces what is shown. One that fails
leaves what is shown, and an error, which a page may show beside it with a button to dismiss it.

`Page` is what the reader asks, and `Page.Laws` what a right answer is. In a run without a signal that
comes too early, an answer that overtakes another, a change that nothing tells of, or an error that is
dismissed although nothing has replaced what it is about, a page with nothing on its way shows what is
right for its subject, or the error of a fetch that failed (`settled_right`).
-/

namespace Refetch

open Run

/-- What a page fetches: the questions about a subject in `K`, with answers in `A`, kept in `F` until
there is a value in `V` to show. -/
structure Page (S K A F V : Type) where
  /-- There is something to ask about the subject. -/
  asks : K → Bool
  start : K → F
  /-- The next question is answered, if it can be answered so. -/
  answer : S → F → A → Option F
  /-- The value, when all questions are answered. -/
  result : F → Option V
  /-- An error is shown beside the value, and can be dismissed. -/
  banner : V → Bool
  /-- The page does more than fetch, and shows an error when that fails. -/
  acts : Bool

/-- The server, and the page with its fetches, the oldest first. -/
structure Reader (S K F V : Type) where
  server : S
  subject : K
  /-- Its listeners are registered. -/
  listening : Bool := false
  /-- Signals on their way. -/
  signals : ℕ := 0
  fetches : List (K × F) := []
  shown : Option V := none
  error : Bool := false
  /-- The fetch that came back last has failed. Nothing reads this. -/
  failed : Bool := false

/-- What can happen. -/
inductive Label (S K A : Type) where
  /-- The server changes, and tells so or does not. -/
  | change (server : S) (signalled : Bool)
  | listens
  /-- A signal arrives. -/
  | signal
  | visits (subject : K)
  /-- The page fetches by itself. -/
  | refreshes
  | answers (i : ℕ) (answer : A)
  /-- A fetch comes back. -/
  | returns (i : ℕ)
  | fails (i : ℕ)
  /-- Something else that the page does fails. -/
  | complains
  | dismisses

variable {S K A F V : Type}

namespace Page

variable (p : Page S K A F V)

/-- Fetch. A subject that there is nothing to ask about clears the page. -/
def refresh (c : Reader S K F V) : Reader S K F V :=
  if p.asks c.subject then { c with fetches := c.fetches ++ [(c.subject, p.start c.subject)] }
  else { c with shown := none, error := true }

/-- The page is opened, and fetches before it listens. -/
def mounted (server : S) (subject : K) : Reader S K F V :=
  p.refresh { server := server, subject := subject }

/-- One step. -/
def next (c : Reader S K F V) : Label S K A → Option (Reader S K F V)
  | .change server signalled =>
    some { c with server := server, signals := c.signals + signalled.toNat }
  | .listens => some { c with listening := true }
  | .signal =>
    match c.signals with
    | 0 => none
    | n + 1 =>
      -- nobody hears it before the listeners are registered
      if c.listening then some (p.refresh { c with signals := n })
      else some { c with signals := n }
  | .visits subject => some (p.refresh { c with subject := subject })
  | .refreshes => some (p.refresh c)
  | .answers i answer => do
    let (subject, fetch) ← c.fetches[i]?
    let fetch ← p.answer c.server fetch answer
    return { c with fetches := c.fetches.set i (subject, fetch) }
  | .returns i => do
    let (_, fetch) ← c.fetches[i]?
    let value ← p.result fetch
    return { c with
      fetches := c.fetches.eraseIdx i, shown := some value, error := false, failed := false }
  | .fails i => do
    let _ ← c.fetches[i]?
    return { c with fetches := c.fetches.eraseIdx i, error := true, failed := true }
  | .complains => if p.acts then some { c with error := true } else none
  | .dismisses => if c.error && c.shown.any p.banner then some { c with error := false } else none

def Step (c : Reader S K F V) (l : Label S K A) (c' : Reader S K F V) : Prop := p.next c l = some c'

/-- What is right: of a fetch under way, and of a value. -/
structure Laws (Good : S → K → F → Prop) (Right : S → K → V → Prop) (Reliable : A → Prop) :
    Prop where
  start : ∀ s k, p.asks k = true → Good s k (p.start k)
  answer : ∀ s k f a f', Good s k f → Reliable a → p.answer s f a = some f' → Good s k f'
  result : ∀ s k f v, Good s k f → p.result f = some v → Right s k v

/-- A change after which everything about a subject is still right. -/
structure Unseen (Good : S → K → F → Prop) (Right : S → K → V → Prop) (k : K) (s s' : S) :
    Prop where
  good : ∀ f, Good s k f → Good s' k f
  right : ∀ v, Right s k v → Right s' k v

variable (Good : S → K → F → Prop) (Right : S → K → V → Prop) (Reliable : A → Prop)

/-- A step with which nothing goes wrong. -/
def Sound (c : Reader S K F V) : Label S K A → Prop
  | .change server signalled => signalled = true ∨ Unseen Good Right c.subject c.server server
  | .signal => c.listening = true
  | .answers _ answer => Reliable answer
  -- the fetches come back in order, and none after the page has been cleared
  | .returns i | .fails i => i = 0 ∧ p.asks c.subject = true
  -- something is to come after a fetch whose error is dismissed
  | .dismisses => c.failed = true → c.signals ≠ 0 ∨ c.fetches ≠ []
  | _ => True

/-- What the page shows when nothing is on its way: the error of a fetch that failed, or a right
value, and nothing but an error where there is nothing to ask. -/
def Shows (c : Reader S K F V) : Prop :=
  if p.asks c.subject then
    c.failed = true ∧ c.error = true ∨ ∃ v, c.shown = some v ∧ Right c.server c.subject v
  else c.shown = none ∧ c.error = true

/-- The last fetch is about the subject, and right so far. -/
def Fetching (c : Reader S K F V) : Prop :=
  ∃ earlier f, c.fetches = earlier ++ [(c.subject, f)] ∧ Good c.server c.subject f

/-- **The invariant.** When no signal is on its way, what the page shows or will show last is right. -/
def Fresh (c : Reader S K F V) : Prop :=
  c.signals = 0 →
    if p.asks c.subject then Fetching Good c ∨ c.fetches = [] ∧ p.Shows Right c
    else p.Shows Right c

variable {Good : S → K → F → Prop} {Right : S → K → V → Prop} {Reliable : A → Prop} {p}
variable {c c' : Reader S K F V}

theorem refresh_fresh (laws : p.Laws Good Right Reliable) (c : Reader S K F V) :
    p.Fresh Good Right (p.refresh c) := by
  intro _
  unfold refresh
  split
  next h_asks => exact .inl ⟨c.fetches, _, rfl, laws.start c.server c.subject h_asks⟩
  next h_asks =>
    unfold Shows
    rw [if_neg h_asks]
    exact ⟨rfl, rfl⟩

/-- A change that is not seen. -/
theorem Fresh.unseen (h : p.Fresh Good Right c) {server : S}
    (h_unseen : Unseen Good Right c.subject c.server server) :
    p.Fresh Good Right { c with server := server } := by
  -- an unseen change of the server spoils neither the fetch under way nor what is shown
  intro h_signals
  have h_fresh := h h_signals
  -- what is shown stays right
  have h_shows : p.Shows Right c → p.Shows Right { c with server := server } := by
    unfold Shows
    split
    · rintro (h_failed | ⟨v, h_shown, h_right⟩)
      · exact .inl h_failed
      · exact .inr ⟨v, h_shown, h_unseen.right _ h_right⟩
    · exact fun h_none => h_none
  show if p.asks c.subject then _ else _
  split
  next h_asks =>
    rw [if_pos h_asks] at h_fresh
    -- the fetch that will correct the view is still the last one
    rcases h_fresh with ⟨earlier, f, h_fetches, h_good⟩ | ⟨h_none, h_show⟩
    · exact .inl ⟨earlier, f, h_fetches, h_unseen.good _ h_good⟩
    · exact .inr ⟨h_none, h_shows h_show⟩
  next h_asks =>
    rw [if_neg h_asks] at h_fresh
    exact h_shows h_fresh

/-- **An answer.** The last fetch stays right, and so does what is shown. -/
theorem Fresh.answered (laws : p.Laws Good Right Reliable) (h : p.Fresh Good Right c) {i : ℕ}
    {x : K × F} (h_x : c.fetches[i]? = some x) {a : A} (h_a : Reliable a) {f' : F}
    (h_answer : p.answer c.server x.2 a = some f') :
    p.Fresh Good Right { c with fetches := c.fetches.set i (x.1, f') } := by
  intro h_signals
  have h_fresh := h h_signals
  show if p.asks c.subject then _ else _
  split
  next h_asks =>
    rw [if_pos h_asks] at h_fresh
    rcases h_fresh with ⟨earlier, f, h_fetches, h_good⟩ | ⟨h_none, -⟩
    · rw [h_fetches] at h_x
      rcases Nat.lt_trichotomy i earlier.length with h_lt | rfl | h_gt
      · -- another fetch
        refine .inl ⟨earlier.set i (x.1, f'), f, ?_, h_good⟩
        show c.fetches.set i _ = _
        rw [h_fetches, List.set_append_left _ _ h_lt]
      · rw [List.getElem?_concat_length] at h_x
        obtain rfl := Option.some.inj h_x
        refine .inl ⟨earlier, f', ?_, laws.answer _ _ _ _ _ h_good h_a h_answer⟩
        show c.fetches.set _ _ = _
        rw [h_fetches, List.set_append_right _ _ (Nat.le_refl _), Nat.sub_self, List.set_cons_zero]
      · rw [List.getElem?_eq_none (by rw [List.length_append]; exact h_gt)] at h_x
        exact absurd h_x (by simp)
    · rw [h_none] at h_x
      exact absurd h_x (by simp)
  next h_asks =>
    rw [if_neg h_asks] at h_fresh
    exact h_fresh

/-- **The oldest fetch is done.** If it is the last one, the page shows what it has brought. -/
theorem Fresh.done (h : p.Fresh Good Right c) (h_asks : p.asks c.subject = true) {x : K × F}
    (h_x : c.fetches[0]? = some x) {shown : Option V} {error failed : Bool}
    (h_done : ∀ k, k = c.subject → Good c.server k x.2 →
      failed = true ∧ error = true ∨ ∃ v, shown = some v ∧ Right c.server k v) :
    p.Fresh Good Right { c with
      fetches := c.fetches.eraseIdx 0, shown := shown, error := error, failed := failed } := by
  -- the fetch that returns is the first one that was asked for
  intro h_signals
  have h_fresh := h h_signals
  show if p.asks c.subject then _ else _
  rw [if_pos h_asks] at h_fresh ⊢
  rcases h_fresh with ⟨earlier, f, h_fetches, h_good⟩ | ⟨h_none, -⟩
  · cases earlier with
    -- it is the last one as well: its answer stands
    | nil =>
      rw [h_fetches] at h_x
      obtain rfl := Option.some.inj h_x
      refine .inr ⟨?_, ?_⟩
      · show c.fetches.eraseIdx 0 = []
        rw [h_fetches]
        rfl
      · unfold Shows
        rw [if_pos h_asks]
        exact h_done _ rfl h_good
    -- a later one is still under way and will have the last word
    | cons y earlier =>
      refine .inl ⟨earlier, f, ?_, h_good⟩
      show c.fetches.eraseIdx 0 = _
      rw [h_fetches]
      rfl
  · -- without a fetch nothing can return
    rw [h_none] at h_x
    exact absurd h_x (by simp)

/-- **An error that does not come from a fetch**, or goes. What is shown stays; the error has to stay
where the page owes it. -/
theorem Fresh.flagged (h : p.Fresh Good Right c) {error : Bool}
    (h_cleared : c.shown = none → p.asks c.subject = false → error = true)
    (h_failed : c.signals = 0 → c.fetches = [] → c.failed = true → error = true) :
    p.Fresh Good Right { c with error := error } := by
  -- the flag says nothing about the fetches, only whether the reader is told of a failure
  intro h_signals
  have h_fresh := h h_signals
  have h_shows : c.fetches = [] ∨ p.asks c.subject = false →
      p.Shows Right c → p.Shows Right { c with error := error } := by
    intro h_owed
    unfold Shows
    split
    next h_asks =>
      have h_none : c.fetches = [] := h_owed.resolve_right (by simp [h_asks])
      -- a failure that is shown may not be dismissed unnoticed
      rintro (⟨h_last, -⟩ | h_right)
      · exact .inl ⟨h_last, h_failed h_signals h_none h_last⟩
      · exact .inr h_right
    next h_asks =>
      rintro ⟨h_shown, -⟩
      exact ⟨h_shown, h_cleared h_shown (Bool.eq_false_iff.mpr h_asks)⟩
  show if p.asks c.subject then _ else _
  split
  next h_asks =>
    rw [if_pos h_asks] at h_fresh
    rcases h_fresh with h_fetching | ⟨h_none, h_show⟩
    · exact .inl h_fetching
    · exact .inr ⟨h_none, h_shows (.inl h_none) h_show⟩
  next h_asks =>
    rw [if_neg h_asks] at h_fresh
    exact h_shows (.inr (Bool.eq_false_iff.mpr h_asks)) h_fresh

/-- **Every sound step keeps it.** -/
theorem Step.fresh (laws : p.Laws Good Right Reliable) {l : Label S K A} (h_step : p.Step c l c')
    (h_sound : p.Sound Good Right Reliable c l) (h : p.Fresh Good Right c) :
    p.Fresh Good Right c' := by
  unfold Step next at h_step
  cases l with
  | change server signalled =>
    obtain rfl := Option.some.inj h_step
    rcases h_sound with rfl | h_unseen
    · intro h_signals
      exact absurd h_signals (Nat.succ_ne_zero _)
    · intro h_signals
      exact h.unseen h_unseen (Nat.eq_zero_of_add_eq_zero_right h_signals)
  | listens =>
    obtain rfl := Option.some.inj h_step
    exact h
  | signal =>
    have h_listening : c.listening = true := h_sound
    simp only at h_step
    split at h_step
    · exact absurd h_step (by simp)
    · rw [if_pos h_listening] at h_step
      obtain rfl := Option.some.inj h_step
      exact refresh_fresh laws _
  | visits subject =>
    obtain rfl := Option.some.inj h_step
    exact refresh_fresh laws _
  | refreshes =>
    obtain rfl := Option.some.inj h_step
    exact refresh_fresh laws _
  | answers i a =>
    obtain ⟨x, h_x, h_step⟩ := Option.bind_eq_some_iff.mp h_step
    obtain ⟨f', h_answer, h_step⟩ := Option.bind_eq_some_iff.mp h_step
    obtain rfl := Option.some.inj h_step
    exact h.answered laws h_x h_sound h_answer
  | returns i =>
    obtain ⟨rfl, h_asks⟩ := h_sound
    obtain ⟨x, h_x, h_step⟩ := Option.bind_eq_some_iff.mp h_step
    obtain ⟨v, h_v, h_step⟩ := Option.bind_eq_some_iff.mp h_step
    obtain rfl := Option.some.inj h_step
    exact h.done h_asks h_x fun k _ h_good => .inr ⟨v, rfl, laws.result _ _ _ _ h_good h_v⟩
  | fails i =>
    obtain ⟨rfl, h_asks⟩ := h_sound
    obtain ⟨x, h_x, h_step⟩ := Option.bind_eq_some_iff.mp h_step
    obtain rfl := Option.some.inj h_step
    exact h.done h_asks h_x fun _ _ _ => .inl ⟨rfl, rfl⟩
  | complains =>
    simp only at h_step
    split at h_step
    · obtain rfl := Option.some.inj h_step
      exact h.flagged (fun _ _ => rfl) fun _ _ _ => rfl
    · exact absurd h_step (by simp)
  | dismisses =>
    simp only at h_step
    split at h_step
    next h_banner =>
      obtain rfl := Option.some.inj h_step
      refine h.flagged (fun h_none _ => ?_) fun h_signals h_fetches h_failed => ?_
      · -- the button stands beside a value
        rw [h_none] at h_banner
        exact absurd h_banner (by simp)
      · rcases h_sound h_failed with h_some | h_some
        · exact absurd h_signals h_some
        · exact absurd h_fetches h_some
    · exact absurd h_step (by simp)

end Page

end Refetch
