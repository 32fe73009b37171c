import ClusterRelay.Log
import ClusterRelay.Mutation
import ClusterRelay.Network

/-!
# The journal of a link

What happens in a run of a link, in the order in which it happens: the calls on the network with
their answers, the fate of every mutation, and the lines that are logged.
-/

namespace ClusterRelay

/-- What became of one attempt to deliver a mutation. -/
inductive Delivery where
  /-- It was submitted, and the connection was live afterwards. -/
  | sent
  /-- It was submitted, and the connection was dead afterwards. -/
  | dead
  /-- It could not be written, submitted or followed up. -/
  | faulted (fault : Fault)
deriving DecidableEq, Repr

/-- One entry of a journal. -/
inductive Note where
  | dialed (endpoint : Endpoint) (credentials : Credentials) (answer : Outcome (Option ConnId))
  | probed (conn : ConnId) (answer : Except Crash Bool)
  | submitted (conn : ConnId) (frame : ByteArray) (answer : Outcome Unit)
  | released (conn : ConnId) (answer : Option Crash)
  | admitted (parcel : Parcel)
  | evicted (parcel : Parcel)
  | attempted (parcel : Parcel) (delivery : Delivery)
  | logged (line : LogLine)

namespace Note

def line? : Note → Option LogLine
  | logged line => some line
  | _ => none

def call? : Note → Option Call
  | dialed endpoint credentials _ => some (.dial endpoint credentials)
  | probed conn _ => some (.probe conn)
  | submitted conn frame _ => some (.submit conn frame)
  | released conn _ => some (.release conn)
  | _ => none

end Note

def linesOf (notes : List Note) : List LogLine := notes.filterMap Note.line?

end ClusterRelay
