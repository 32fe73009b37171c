import ClusterRelay.Backlog.Basic

/-!
# Waiting for an entry

A backlog and the one consumer that may be waiting at it. A consumer that finds nothing goes to
sleep; every offer rings, and ringing either wakes the sleeper or, if nobody sleeps, is remembered
as one credit, however often it happens. A consumer that found nothing and is about to fall asleep
uses up the credit, if there is one, and looks again instead: the ring may have come after it
looked. One that was woken but goes away before it had a look passes its ring on.

The consumer acts in small steps, so offers can fall between any two of them.
-/

namespace ClusterRelay

variable {α : Type}

/-- Where the consumer stands. -/
inductive Consumer where
  | absent
  | looking
  /-- It found nothing and is about to fall asleep. -/
  | drowsy
  | asleep
  | woken
deriving DecidableEq, Repr

structure Handoff (α : Type) where
  backlog : Backlog α
  credit : Bool := false
  consumer : Consumer := .absent

namespace Handoff

/-- A ring wakes the sleeper, or is kept as the credit. -/
def ring (h : Handoff α) : Handoff α :=
  match h.consumer with
  | .asleep => { h with consumer := .woken }
  | _ => { h with credit := true }

/-- Takes in an entry and rings. -/
def offer (h : Handoff α) (a : α) : Option α × Handoff α :=
  let (evicted, backlog) := h.backlog.offer a
  (evicted, ring { h with backlog })

def tryTake (h : Handoff α) : Option α × Handoff α :=
  match h.backlog.take? with
  | none => (none, h)
  | some (a, backlog) => (some a, { h with backlog })

def arrive (h : Handoff α) : Handoff α := { h with consumer := .looking }

/-- One step of the consumer. If it looks and finds an entry, it takes the oldest one and is gone;
a sleeper does nothing. -/
def step (h : Handoff α) : Option α × Handoff α :=
  match h.consumer with
  | .absent | .asleep => (none, h)
  | .looking | .woken =>
    match h.backlog.take? with
    | some (a, backlog) => (some a, { h with backlog, consumer := .absent })
    | none => (none, { h with consumer := .drowsy })
  | .drowsy =>
    if h.credit then (none, { h with credit := false, consumer := .looking })
    else (none, { h with consumer := .asleep })

/-- Some steps of the consumer, up to the one that takes an entry. -/
def steps (h : Handoff α) : Nat → Option α × Handoff α
  | 0 => (none, h)
  | n + 1 =>
    match h.step with
    | (some a, h) => (some a, h)
    | (none, h) => h.steps n

/-- The consumer acts until it has an entry or sleeps. Undisturbed it looks twice at most, since the
credit lasts for one more look, so four steps are enough. -/
def poll (h : Handoff α) : Option α × Handoff α := h.steps 4

/-- The consumer goes away. One that was woken passes its ring on. -/
def leave (h : Handoff α) : Handoff α :=
  match h.consumer with
  | .woken => ring { h with consumer := .absent }
  | _ => { h with consumer := .absent }

end Handoff

end ClusterRelay
