/-!
# Status

What a link publishes about itself. `Counters` is what its forwarder keeps up to date while it
runs; `LinkStatus` adds the state of the link and the books of its backlog; `RelayStatus` is the
report of all links of a node. All counts have sixty-four bits.
-/

namespace ClusterRelay

/-- Whether a link still works. A link that stopped stays stopped. -/
inductive LinkState where
  | running
  | stopped
deriving DecidableEq, Repr, Inhabited

/-- What a link's forwarder publishes. -/
structure Counters where
  /-- Mutations that were submitted to a connection still live afterwards. -/
  sent : UInt64 := 0
  /-- Submissions after which the connection was dead. -/
  sendFailures : UInt64 := 0
  /-- Visits to a target that brought no connection. -/
  connectFailures : UInt64 := 0
  /-- Connections that were found live. -/
  connectionsEstablished : UInt64 := 0
  /-- Mutations that were dropped because of a fault. -/
  faults : UInt64 := 0
  /-- Mutations that wait to be submitted again. -/
  retryDepth : UInt64 := 0
  /-- Whether a mutation is in the forwarder's hand. -/
  inFlight : Bool := false
  /-- The target behind the connection in use. -/
  activeTarget : Option String := none
  /-- The description of the latest fault. -/
  lastFault : Option String := none
deriving DecidableEq, Repr, Inhabited

/-- What a link publishes. -/
structure LinkStatus where
  name : String
  state : LinkState
  targets : List String
  queueDepth : UInt64
  queueCapacity : UInt64
  offered : UInt64
  evicted : UInt64
  counters : Counters
deriving DecidableEq, Repr, Inhabited

structure RelayStatus where
  nodeId : String
  replicationEnabled : Bool
  linkCount : UInt64
  links : List LinkStatus
deriving DecidableEq, Repr, Inhabited

namespace Counters

def countSent (c : Counters) : Counters := { c with sent := c.sent + 1 }

def countSendFailure (c : Counters) : Counters := { c with sendFailures := c.sendFailures + 1 }

/-- A visit to a target was in vain. -/
def countConnectFailure (c : Counters) : Counters :=
  { c with connectFailures := c.connectFailures + 1 }

/-- A connection to a target was found live. -/
def connected (c : Counters) (target : String) : Counters :=
  { c with
    connectionsEstablished := c.connectionsEstablished + 1
    activeTarget := some target }

/-- The connection in use was given up. -/
def disconnected (c : Counters) : Counters := { c with activeTarget := none }

/-- A mutation was dropped for the reason described. -/
def countFault (c : Counters) (description : String) : Counters :=
  { c with faults := c.faults + 1, lastFault := some description }

end Counters

end ClusterRelay
