import ClusterRelay.Forwarder
import ClusterRelay.Settings.Basic

/-!
# Links

A link is a forwarder with a front door. It is made from its settings and started at once; it admits
mutations until the signal to stop has been given, and from then on discards them. Once stopped, a
link stays stopped.
-/

namespace ClusterRelay

/-- What can happen to a link. -/
inductive LinkEvent where
  | offer (mutation : Mutation)
  | stop
  /-- Something happens to its forwarder; an offer here is one that was let in before the signal
  to stop and comes to the backlog after it. -/
  | forwarder (event : Event)

/-- A link to a peer cluster. -/
structure Link where
  name : String
  targets : List String
  forwarder : Forwarder
  /-- Whether somebody has already learned how the forwarder ended. -/
  joined : Bool := false

namespace Link

/-- The link that settings ask for, not started. -/
def ofSettings (l : LinkSettings) (port : UInt16) (capacity : Nat) : Outcome Link :=
  match Backlog.allocate capacity with
  | .error crash => .crashed crash
  | .ok backlog => do
    let failover ← .ofExcept
      (Failover.start l.name l.targets port l.credentials l.schedule.pacing)
    .done { name := l.name
            targets := l.targets
            forwarder := Forwarder.ofParts failover backlog }

def say (l : Link) (line : String → LogLine) (text : String) : LogLine :=
  line (aboutLink l.name text)

def announcement (l : Link) : LogLine := l.say .info "link initialized"

def onForwarder (l : Link) (e : Event) : Link × List Note :=
  let (forwarder, notes) := l.forwarder.step e
  ({ l with forwarder }, notes)

/-- A mutation is offered; it is discarded after the signal to stop. -/
def offer (l : Link) (m : Mutation) : Link × List Note :=
  if l.forwarder.signal = .given then
    (l, [.logged (l.say .debug "link stopped, discarding update")])
  else l.onForwarder (.offer m)

/-- The signal to stop is given. Only the first time is worth a line. -/
def stop (l : Link) : Link × List Note :=
  if l.forwarder.signal = .given then (l, [])
  else
    let (l', notes) := l.onForwarder .stop
    (l', notes ++ [.logged (l.say .info "stop requested")])

/-- What an event does to a link, and the notes about it. -/
def step (l : Link) : LinkEvent → Link × List Note
  | .offer m => l.offer m
  | .stop => l.stop
  | .forwarder e => l.onForwarder e

def run (l : Link) : List LinkEvent → Link × List Note
  | [] => (l, [])
  | e :: es =>
    let (l, notes) := l.step e
    let (l, others) := l.run es
    (l, notes ++ others)

/-- How the forwarder ended, if it has ended: it is a fault if it crashed. The fault is told only
once. -/
def join (l : Link) : Except Fault Unit × Link :=
  match l.forwarder.phase, l.joined with
  | .ended (.crashed crash), false =>
    (.error (crash.asFault ("worker thread for link " ++ l.name)), { l with joined := true })
  | .ended _, _ => (.ok (), { l with joined := true })
  | _, _ => (.ok (), l)

def state (l : Link) : LinkState := l.forwarder.state

/-- Nothing is queued, in flight or waiting to be retried. -/
def isIdle (l : Link) : Bool :=
  l.forwarder.backlog.isEmpty && !l.forwarder.counters.inFlight &&
    l.forwarder.counters.retryDepth == 0

def status (l : Link) : LinkStatus where
  name := l.name
  state := l.forwarder.state
  targets := l.targets
  queueDepth := UInt64.ofNat l.forwarder.backlog.size
  queueCapacity := UInt64.ofNat l.forwarder.backlog.capacity
  offered := l.forwarder.backlog.offered
  evicted := l.forwarder.backlog.evicted
  counters := l.forwarder.counters

end Link

end ClusterRelay
