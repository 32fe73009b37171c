import ClusterRelay.Network
import ClusterRelay.Outlet

/-!
# The switchboard

The table of a node's connections, one for each endpoint at most. Dialing an endpoint with a live
connection hands out that connection. Otherwise an attempt to connect is under way after the call,
and the caller has to ask again: an entry of the table is either pending, for as long as the attempt
lasts, or holds the connection that the attempt brought. A failed attempt leaves no entry, and a
dead connection makes way for a new attempt.
-/

namespace ClusterRelay

/-- What is known of an endpoint. -/
inductive Slot where
  /-- An attempt to connect is under way. -/
  | pending
  /-- The attempt brought this connection. -/
  | ready (conn : ConnId)
deriving DecidableEq, Repr

/-- The connections of a node. A connection's name is its place among all that were ever made. -/
structure Switchboard where
  slots : List (Endpoint × Slot) := []
  outlets : Array Outlet := #[]

namespace Switchboard

def isLive (s : Switchboard) (conn : ConnId) : Bool :=
  match s.outlets[conn]? with
  | some o => o.isLive
  | none => false

def slot? (s : Switchboard) (e : Endpoint) : Option Slot := s.slots.lookup e

/-- The table without what it says about an endpoint. -/
def erase (s : Switchboard) (e : Endpoint) : Switchboard :=
  { s with slots := s.slots.filter (·.1 ≠ e) }

/-- The table with one thing to say about an endpoint. -/
def insert (s : Switchboard) (e : Endpoint) (slot : Slot) : Switchboard :=
  { s with slots := (e, slot) :: s.slots.filter (·.1 ≠ e) }

/-- Asks for a connection to an endpoint. -/
def dial (s : Switchboard) (e : Endpoint) : Option ConnId × Switchboard :=
  match s.slot? e with
  | some .pending => (none, s)
  | some (.ready conn) => if s.isLive conn then (some conn, s) else (none, s.insert e .pending)
  | none => (none, s.insert e .pending)

/-- An attempt to connect failed. -/
def connectFailed (s : Switchboard) (e : Endpoint) : Switchboard :=
  match s.slot? e with
  | some .pending => s.erase e
  | _ => s

/-- An attempt to connect succeeded. If the handshake cannot be written the connection is useless,
and the entry goes. -/
def connected (s : Switchboard) (e : Endpoint) (credentials : Credentials) :
    Except Fault ConnId × Switchboard :=
  match Outlet.start credentials with
  | .error fault => (.error fault, s.erase e)
  | .ok outlet =>
    let conn := s.outlets.size
    (.ok conn, { s with outlets := s.outlets.push outlet }.insert e (.ready conn))

def onOutlet (s : Switchboard) (conn : ConnId) (f : Outlet → Outlet) : Switchboard :=
  { s with outlets := s.outlets.modify conn f }

def liveCount (s : Switchboard) : Nat :=
  s.slots.countP fun (_, slot) =>
    match slot with
    | .ready conn => s.isLive conn
    | .pending => false

end Switchboard

end ClusterRelay
