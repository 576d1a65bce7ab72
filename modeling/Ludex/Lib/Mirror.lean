import Ludex.Lib.Run

/-!
# Mirrors

A source sends messages about what it does, through a queue of bounded length that drops what does not
fit, to one who listens and keeps a mirror of the source. `Source` is the source and `Wire` the
whole: the source, the messages under way, and the mirror.

If a mirror stays in agreement with the source whenever it hears all that an action has sent, then
in every run in which nothing is lost it agrees with the source as soon as nothing is under way
(`mirrors`). Nothing is lost if every message is delivered and the queue never fills (`nothing_lost`).
-/

namespace Mirror

open Run

/-- A source with actions `X`, that sends messages `N`. -/
abbrev Source (S X N : Type) := S → X → Option (S × List N)

/-- A source, the messages under way, the oldest first, and the mirror. -/
structure Wire (S N L : Type) where
  source : S
  queue : List N := []
  mirror : L
  /-- A message has been lost. -/
  lost : Bool := false

/-- What can happen. -/
inductive Label (X N : Type) where
  /-- The source acts, and the queue takes some of what it sends. -/
  | acts (action : X) (accepted : List N)
  | hears
  /-- The oldest message is not delivered. -/
  | loses

variable {S X N L : Type} [DecidableEq N]

section

variable (source : Source S X N) (hear : L → N → L) (capacity : ℕ)

/-- One step. -/
def next (w : Wire S N L) : Label X N → Option (Wire S N L)
  | .acts action accepted => do
    let (s, sent) ← source w.source action
    if accepted = sent then
      return { w with source := s, queue := w.queue ++ sent }
    -- the queue was full when it dropped what is missing
    else if accepted.Sublist sent ∧ capacity ≤ w.queue.length + accepted.length then
      return { w with source := s, queue := w.queue ++ accepted, lost := true }
    else none
  | .hears =>
    match w.queue with
    | [] => none
    | message :: queue => some { w with queue := queue, mirror := hear w.mirror message }
  | .loses =>
    match w.queue with
    | [] => none
    | _ :: queue => some { w with queue := queue, lost := true }

def Step (w : Wire S N L) (l : Label X N) (w' : Wire S N L) : Prop :=
  next source hear capacity w l = some w'

/-- A mirror that hears what an action has sent stays in agreement. -/
def Follows (Agrees : L → S → Prop) : Prop :=
  ∀ s action s' sent mirror, source s action = some (s', sent) → Agrees mirror s →
    Agrees (sent.foldl hear mirror) s'

end

/-- The mirror, when all that is under way has arrived. -/
def Wire.caughtUp (hear : L → N → L) (w : Wire S N L) : L := w.queue.foldl hear w.mirror

variable {source : Source S X N} {hear : L → N → L} {capacity : ℕ} {w w' : Wire S N L}

/-- **What a step can do.** -/
theorem Step.cases {l : Label X N} (h : Step source hear capacity w l w') :
    (∃ action s sent, l = .acts action sent ∧ source w.source action = some (s, sent) ∧
      w' = { w with source := s, queue := w.queue ++ sent }) ∨
    (∃ action accepted s sent, l = .acts action accepted ∧
      source w.source action = some (s, sent) ∧ accepted ≠ sent ∧ accepted.Sublist sent ∧
      capacity ≤ w.queue.length + accepted.length ∧
      w' = { w with source := s, queue := w.queue ++ accepted, lost := true }) ∨
    (∃ message queue, l = .hears ∧ w.queue = message :: queue ∧
      w' = { w with queue := queue, mirror := hear w.mirror message }) ∨
    (∃ message queue, l = .loses ∧ w.queue = message :: queue ∧
      w' = { w with queue := queue, lost := true }) := by
  -- what the source sends arrives in full, in part, or is heard or lost later
  unfold Step next at h
  cases l with
  | acts action accepted =>
    obtain ⟨⟨s, sent⟩, h_source, h⟩ := Option.bind_eq_some_iff.mp h
    simp only at h
    split at h
    next h_all =>
      obtain rfl := Option.some.inj h
      exact .inl ⟨action, s, sent, by rw [h_all], h_source, rfl⟩
    -- a part is lost only when the queue is full
    next h_some =>
      split at h
      next h_full =>
        obtain rfl := Option.some.inj h
        exact .inr (.inl ⟨action, accepted, s, sent, rfl, h_source, h_some, h_full.1, h_full.2, rfl⟩)
      next => exact absurd h (by simp)
  | hears =>
    simp only at h
    split at h
    next => exact absurd h (by simp)
    next message queue h_queue =>
      obtain rfl := Option.some.inj h
      exact .inr (.inr (.inl ⟨message, queue, rfl, h_queue, rfl⟩))
  | loses =>
    simp only at h
    split at h
    next => exact absurd h (by simp)
    next message queue h_queue =>
      obtain rfl := Option.some.inj h
      exact .inr (.inr (.inr ⟨message, queue, rfl, h_queue, rfl⟩))

/-- **A mirror that has heard all agrees**, as long as nothing has been lost. -/
theorem mirrors {Agrees : L → S → Prop} (h_follows : Follows source hear Agrees)
    {tr : List (Label X N × Wire S N L)} (hrun : IsRun (Step source hear capacity) w tr)
    (h : Agrees (w.caughtUp hear) w.source) :
    ∀ v ∈ states w tr, v.lost = false → Agrees (v.caughtUp hear) v.source := by
  refine hrun.invariant (fun v => v.lost = false → Agrees (v.caughtUp hear) v.source) ?_ fun _ => h
  rintro v l v' h_step h_agrees h_kept
  rcases h_step.cases with ⟨action, s, sent, -, h_source, rfl⟩ |
    ⟨action, accepted, s, sent, -, -, -, -, -, rfl⟩ | ⟨message, queue, -, h_queue, rfl⟩ |
    ⟨message, queue, -, -, rfl⟩
  · -- what is under way already comes first
    have h_heard := h_follows _ _ _ _ _ h_source (h_agrees h_kept)
    unfold Wire.caughtUp at h_heard ⊢
    rwa [List.foldl_append]
  · exact absurd h_kept (by simp)
  · have h_heard := h_agrees h_kept
    unfold Wire.caughtUp at h_heard ⊢
    rwa [h_queue, List.foldl_cons] at h_heard
  · exact absurd h_kept (by simp)

/-- **Nothing is lost** when every message is delivered, an action sends at most `most` of them, and fewer
than the rest of the queue are under way. -/
theorem nothing_lost {most : ℕ} {Inv : S → Prop}
    (h_most : ∀ s action s' sent, source s action = some (s', sent) → Inv s →
      Inv s' ∧ sent.length ≤ most)
    {tr : List (Label X N × Wire S N L)} (hrun : IsRun (Step source hear capacity) w tr)
    (h_delivered : ∀ x ∈ steps w tr, x.2.1 ≠ .loses ∧ x.1.queue.length + most ≤ capacity)
    (h : Inv w.source) (h_kept : w.lost = false) : ∀ v ∈ states w tr, v.lost = false := by
  have h_states : ∀ v ∈ states w tr, Inv v.source ∧ v.lost = false := by
    refine hrun.invariant_of_steps (fun v => Inv v.source ∧ v.lost = false)
      (fun v l => l ≠ .loses ∧ v.queue.length + most ≤ capacity) ?_ h_delivered ⟨h, h_kept⟩
    rintro v l v' h_step ⟨h_loses, h_room⟩ ⟨h_inv, h_kept⟩
    rcases h_step.cases with ⟨action, s, sent, -, h_acts, rfl⟩ |
      ⟨action, accepted, s, sent, -, h_acts, h_ne, h_sub, h_full, -⟩ |
      ⟨message, queue, -, -, rfl⟩ | ⟨message, queue, rfl, -, -⟩
    · exact ⟨(h_most _ _ _ _ h_acts h_inv).1, h_kept⟩
    · -- what was dropped would have fitted
      have h_sent : sent.length ≤ most := (h_most _ _ _ _ h_acts h_inv).2
      have h_less : accepted.length < sent.length :=
        Nat.lt_of_le_of_ne h_sub.length_le fun h_eq => h_ne (h_sub.eq_of_length h_eq)
      omega
    · exact ⟨h_inv, h_kept⟩
    · exact absurd rfl h_loses
  exact fun v hv => (h_states v hv).2

end Mirror
