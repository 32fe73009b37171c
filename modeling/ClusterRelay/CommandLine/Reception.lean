import ClusterRelay.CommandLine.Exit
import ClusterRelay.Ingest
import ClusterRelay.SocketAddress

/-!
# The receiving command

The command listens at an address until it is interrupted. What peers send is logged and goes no
further.
-/

namespace ClusterRelay.CommandLine

structure Reception where
  address : SocketAddress
  /-- What peers have to show. -/
  credentials : Credentials
  listener : Ingest.Listener := {}

namespace Reception

/-- The command begins to listen, if it can listen at the address. -/
def start (address : String) (credentials : Credentials) :
    Except Complaint Reception × List Remark :=
  match listenOn address with
  | none => (.error .other, [])
  | some address =>
    let (listener, lines) := ({} : Ingest.Listener).step .run
    (.ok { address, credentials, listener }, Remark.ofLines lines)

/-- A peer comes. -/
def greet (r : Reception) : Ingest.Session := { expected := some r.credentials }

def interrupt (r : Reception) : Reception × List Remark :=
  let (listener, lines) := r.listener.step .raise
  ({ r with listener }, .own (.info "Shutdown signal received") :: Remark.ofLines lines)

def exit? (r : Reception) : Option Exit :=
  if r.listener.running = some false then some { code := 0 } else none

end Reception

end ClusterRelay.CommandLine
