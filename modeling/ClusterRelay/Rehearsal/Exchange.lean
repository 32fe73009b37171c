import ClusterRelay.Ingest
import ClusterRelay.Rehearsal.Clock
import ClusterRelay.Switchboard

/-!
# Rehearsing against peers that are there

A network in which every endpoint can be reached and no connection ever dies. Dialing brings a
connection at once, what is submitted to a connection is on its socket at once, and at the other
end of every connection a peer takes in what arrives.
-/

namespace ClusterRelay.Rehearsal.Exchange

/-- An endpoint is dialed, and the attempt to connect succeeds unless the handshake cannot be
written. -/
def reach (s : Switchboard) (e : Endpoint) (credentials : Credentials) :
    Option ConnId × Switchboard :=
  match s.dial e with
  | (some conn, s) => (some conn, s)
  | (none, s) =>
    match s.connected e credentials with
    | (.ok conn, s) => (some conn, s.onOutlet conn Outlet.flush)
    | (.error _, s) => (none, s)

/-- How the network answers. -/
def answer : Partner Switchboard := fun s _ call =>
  match call with
  | .dial e credentials =>
    let (conn, s) := reach s e credentials
    ({ dial := .done conn }, s)
  | .probe conn => ({ probe := .ok (s.isLive conn) }, s)
  | .submit conn frame => ({}, s.onOutlet conn fun o => (o.step (.submit frame)).flush)
  | .release conn => ({}, s.onOutlet conn (·.step .letGo))

/-- What the peers make of all that was sent to them, connection by connection. -/
def sessions (expected : Option Credentials) (s : Switchboard) : List Ingest.Session :=
  s.outlets.toList.map fun o => Ingest.Session.ofChunks expected [o.written]

end ClusterRelay.Rehearsal.Exchange
