import ClusterRelay.Credentials
import ClusterRelay.Endpoint
import ClusterRelay.Log

/-!
# The network, as a link sees it

A link talks to the network in four kinds of call: it dials an endpoint, probes whether a connection
is live, submits a frame to one, and releases one that it needs no longer. What the network does
with these calls is no business of the link: any call may be answered in any way at any time, and
any may end in a crash. So there is no network here, only the calls and the ways in which they can
come out. Whoever catches a crash has to dispose of what it left, which can be anything, and may
crash in turn.

`Answers` holds an answer for each kind of call. A step of a link makes one call at most, so one
record of answers is all that a step has to be given.
-/

namespace ClusterRelay

/-- The name of a connection. -/
abbrev ConnId := Nat

/-- How a call came out. -/
inductive Outcome (α : Type) where
  | done (a : α)
  | refused (fault : Fault)
  | crashed (crash : Crash)
deriving DecidableEq, Repr, Inhabited

namespace Outcome

variable {α β : Type}

def ofExcept : Except Fault α → Outcome α
  | .ok a => .done a
  | .error fault => .refused fault

/-- What comes next is done with what came out, if anything did. -/
def bind : Outcome α → (α → Outcome β) → Outcome β
  | .done a, next => next a
  | .refused fault, _ => .refused fault
  | .crashed crash, _ => .crashed crash

instance : Monad Outcome where
  pure := .done
  bind := bind

theorem done_of_ofExcept {x : Except Fault α} {a : α} (h : ofExcept x = .done a) : x = .ok a := by
  cases x with
  | error fault => cases h
  | ok a' =>
      cases h
      rfl

theorem done_of_bind {x : Outcome α} {next : α → Outcome β} {b : β} (h : x >>= next = .done b) :
    ∃ a, x = .done a ∧ next a = .done b := by
  cases x with
  | done a => exact ⟨a, rfl, h⟩
  | refused fault => cases h
  | crashed crash => cases h

end Outcome

/-- A call on the network. -/
inductive Call where
  /-- Ask for a connection to an endpoint, presenting credentials. -/
  | dial (endpoint : Endpoint) (credentials : Credentials)
  /-- Ask whether a connection is live. -/
  | probe (conn : ConnId)
  /-- Hand a frame to a connection. -/
  | submit (conn : ConnId) (frame : ByteArray)
  /-- Let go of a connection. -/
  | release (conn : ConnId)

/-- What the network would answer to each kind of call. -/
structure Answers where
  /-- A connection, or none as yet. -/
  dial : Outcome (Option ConnId) := .done none
  probe : Except Crash Bool := .ok true
  submit : Outcome Unit := .done ()
  release : Option Crash := none
  /-- How it comes out to dispose of what a crash left, if one is caught. -/
  disposal : Option Crash := none

end ClusterRelay
