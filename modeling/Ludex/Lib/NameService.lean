import Mathlib.Data.List.Basic

/-!
# A name that one client has at a time

Clients of a message bus ask for a name, with flags for what happens when somebody has it or comes to
want it. `NameService` is what such a service promises about an owner that does not let itself be
replaced: nobody is granted the name while it is connected. Clients are an arbitrary type.

`NameService.queued` is the service with a queue of waiting clients.
-/

/-- How a client asks for the name. -/
structure RequestNameFlags where
  allowReplacement : Bool := false
  replaceExisting : Bool := false
  doNotQueue : Bool := false
deriving DecidableEq, Repr

/-- What the service answers. -/
inductive RequestNameReply where
  | primaryOwner
  | inQueue
  | exists_
  | alreadyOwner
deriving DecidableEq, Repr

/-- The client has the name. -/
def RequestNameReply.granted : RequestNameReply → Bool
  | primaryOwner | alreadyOwner => true
  | inQueue | exists_ => false

/-- A service that gives a name to clients. -/
structure NameService (C : Type) where
  State : Type
  request : C → RequestNameFlags → State → RequestNameReply × State
  disconnect : C → State → State
  /-- The client has the name and does not let itself be replaced. -/
  Keeps : State → C → Prop
  unique : ∀ {s : State} {c c' : C}, Keeps s c → Keeps s c' → c = c'
  keeps_of_granted : ∀ {s : State} {c : C} {flags : RequestNameFlags},
    flags.allowReplacement = false → (request c flags s).1.granted = true →
      Keeps (request c flags s).2 c
  request_other : ∀ {s : State} {c c' : C} {flags : RequestNameFlags}, Keeps s c → c' ≠ c →
    (request c' flags s).1.granted = false ∧ Keeps (request c' flags s).2 c
  disconnect_other : ∀ {s : State} {c c' : C}, Keeps s c → c' ≠ c → Keeps (disconnect c' s) c

namespace NameService

variable {C : Type} [DecidableEq C]

/-- Put a client into the queue, or give it its new flags where it stands. -/
def enqueue (c : C) (flags : RequestNameFlags) (queue : List (C × RequestNameFlags)) :
    List (C × RequestNameFlags) :=
  if queue.any fun x => x.1 = c then queue.map fun x => if x.1 = c then (c, flags) else x
  else queue ++ [(c, flags)]

/-- Ask for the name. The owner is the head of the list, and the queue is behind it. -/
def requestQueued (c : C) (flags : RequestNameFlags) :
    List (C × RequestNameFlags) → RequestNameReply × List (C × RequestNameFlags)
  | [] => (.primaryOwner, [(c, flags)])
  | (owner, ownerFlags) :: queue =>
    if owner = c then (.alreadyOwner, (c, flags) :: queue)
    else if ownerFlags.allowReplacement && flags.replaceExisting then
      (.primaryOwner, (c, flags) ::
        ((if ownerFlags.doNotQueue then [] else [(owner, ownerFlags)]) ++
          queue.filter fun x => x.1 ≠ c))
    else if flags.doNotQueue then
      (.exists_, (owner, ownerFlags) :: queue.filter fun x => x.1 ≠ c)
    else (.inQueue, (owner, ownerFlags) :: enqueue c flags queue)

/-- The client is the owner, and does not let itself be replaced. -/
def KeepsQueued (s : List (C × RequestNameFlags)) (c : C) : Prop :=
  ∃ flags queue, s = (c, flags) :: queue ∧ flags.allowReplacement = false

omit [DecidableEq C] in
theorem keepsQueued_unique {s : List (C × RequestNameFlags)} {c c' : C} (h : KeepsQueued s c)
    (h' : KeepsQueued s c') : c = c' := by
  obtain ⟨flags, queue, rfl, -⟩ := h
  obtain ⟨flags', queue', h_eq, -⟩ := h'
  exact congrArg Prod.fst (List.cons.inj h_eq).1

theorem keepsQueued_of_granted {s : List (C × RequestNameFlags)} {c : C} {flags : RequestNameFlags}
    (h_flags : flags.allowReplacement = false)
    (h_granted : (requestQueued c flags s).1.granted = true) :
    KeepsQueued (requestQueued c flags s).2 c := by
  cases s with
  | nil => exact ⟨flags, [], rfl, h_flags⟩
  | cons x queue =>
    obtain ⟨owner, ownerFlags⟩ := x
    rw [requestQueued] at h_granted ⊢
    by_cases h_owner : owner = c
    · rw [if_pos h_owner]
      exact ⟨flags, queue, rfl, h_flags⟩
    · rw [if_neg h_owner] at h_granted ⊢
      by_cases h_replace : (ownerFlags.allowReplacement && flags.replaceExisting) = true
      · rw [if_pos h_replace]
        exact ⟨flags, _, rfl, h_flags⟩
      · -- the name is somebody else's
        rw [if_neg h_replace] at h_granted
        by_cases h_queue : flags.doNotQueue = true
        · rw [if_pos h_queue] at h_granted
          exact nomatch h_granted
        · rw [if_neg h_queue] at h_granted
          exact nomatch h_granted

theorem requestQueued_other {s : List (C × RequestNameFlags)} {c c' : C} {flags : RequestNameFlags}
    (h : KeepsQueued s c) (h_ne : c' ≠ c) :
    (requestQueued c' flags s).1.granted = false ∧ KeepsQueued (requestQueued c' flags s).2 c := by
  obtain ⟨ownerFlags, queue, rfl, h_stays⟩ := h
  rw [requestQueued, if_neg h_ne.symm, h_stays, Bool.false_and, if_neg Bool.false_ne_true]
  by_cases h_queue : flags.doNotQueue = true
  · rw [if_pos h_queue]
    exact ⟨rfl, ownerFlags, _, rfl, h_stays⟩
  · rw [if_neg h_queue]
    exact ⟨rfl, ownerFlags, _, rfl, h_stays⟩

theorem keepsQueued_filter {s : List (C × RequestNameFlags)} {c c' : C} (h : KeepsQueued s c)
    (h_ne : c' ≠ c) : KeepsQueued (s.filter fun x => x.1 ≠ c') c := by
  obtain ⟨flags, queue, rfl, h_stays⟩ := h
  refine ⟨flags, queue.filter fun x => x.1 ≠ c', ?_, h_stays⟩
  exact List.filter_cons_of_pos (decide_eq_true h_ne.symm)

/-- The service with a queue. -/
def queued : NameService C where
  State := List (C × RequestNameFlags)
  request := requestQueued
  disconnect := fun c s => s.filter fun x => x.1 ≠ c
  Keeps := KeepsQueued
  unique := keepsQueued_unique
  keeps_of_granted := keepsQueued_of_granted
  request_other := requestQueued_other
  disconnect_other := keepsQueued_filter

end NameService
