import ClusterRelay.Journal
import ClusterRelay.Pacing
import ClusterRelay.Status.Basic

/-!
# Failover

How a link finds a live connection. Its targets stand in a rotation. The target at the head is
visited: it is polled until it yields a live connection or the visit's polls are used up. A visit in
vain ends with a delay and sends the target to the end of the rotation. The target behind the
connection in use is held out of the rotation; when that connection dies the target goes to the end.

The search is a machine. `Seek` is where it stands, and `Failover.step` takes it one step further: a
step makes at most one call on the network. A search never fails: it ends with a live connection,
or with a crash that nobody caught, or it goes on for ever. It is suspended while it waits out a
delay, and it can be dropped there: no target is lost, and the next search begins at the head.
-/

namespace ClusterRelay

/-- The targets of a link and the connection in use. -/
structure Failover where
  link : String
  /-- The targets that wait for their turn, the next one first. -/
  rotation : List String
  /-- The connection in use and the target behind it. -/
  active : Option (String × ConnId) := none
  port : UInt16
  credentials : Credentials
  pacing : Pacing

/-- A visit to a target: its endpoint, how many polls there are, and the number of this one. -/
structure Visit where
  target : String
  endpoint : Endpoint
  attempts : Nat
  poll : Nat
deriving DecidableEq, Repr

/-- Where a search stands. -/
inductive Seek where
  /-- About to probe the connection in use. -/
  | verifying
  /-- The connection that was in use is to be released. -/
  | dropping (conn : ConnId)
  /-- About to visit the target at the head. -/
  | visiting
  | dialing (visit : Visit)
  /-- About to probe a connection that dialing brought. -/
  | probing (visit : Visit) (conn : ConnId)
  /-- That connection is not live and is to be released. -/
  | discarding (visit : Visit) (conn : ConnId)
  /-- Probing it crashed, and it is to be released. -/
  | lapsing (visit : Visit) (conn : ConnId) (crash : Crash)
  /-- Suspended after a poll. -/
  | pausing (visit : Visit) (wake : Nat)
  /-- Suspended after a visit in vain. -/
  | resting (wake : Nat)
deriving DecidableEq, Repr

inductive Progress where
  | seeking (next : Seek)
  | found (conn : ConnId)
  | broken (crash : Crash)
deriving DecidableEq, Repr

structure Turn where
  failover : Failover
  counters : Counters
  progress : Progress
  notes : List Note

/-- The time at which a suspended search goes on. -/
def Seek.wake? : Seek → Option Nat
  | .pausing _ wake => some wake
  | .resting wake => some wake
  | _ => none

namespace Failover

/-- Targets in the order in which they are configured, and no connection. A link needs a target. -/
def start (link : String) (targets : List String) (port : UInt16) (credentials : Credentials)
    (pacing : Pacing) : Except Fault Failover :=
  if targets = [] then .error (.settings ("link " ++ link ++ " has no targets"))
  else .ok { link, rotation := targets, port, credentials, pacing }

def activeTarget (f : Failover) : Option String := f.active.map (·.1)

/-- The target at the head goes to the end. -/
def rotated (f : Failover) : Failover :=
  match f.rotation with
  | [] => f
  | target :: others => { f with rotation := others ++ [target] }

def say (f : Failover) (line : String → LogLine) (text : String) : Note :=
  .logged (line (aboutLink f.link text))

/-- After a visit, the delay before the next target's turn. -/
def rest (f : Failover) (c : Counters) (now : Nat) (notes : List Note) : Turn :=
  match f.pacing.rotateDelay with
  | .error crash => ⟨f, c, .broken crash, notes⟩
  | .ok delay => ⟨f, c, .seeking (.resting (now + delay.wait)), notes⟩

def failed (f : Failover) (c : Counters) (now : Nat) (notes : List Note) (target : String)
    (fault : Fault) : Turn :=
  f.rest c.countConnectFailure now
    (notes ++ [f.say .warn ("failed to connect to " ++ target ++ ": " ++ fault.message)])

/-- A visit has used up its polls. Whoever records it asks again how many there were, and once more
to put the number into words. -/
def exhausted (f : Failover) (c : Counters) (now : Nat) (notes : List Note)
    (target : String) : Turn :=
  match f.pacing.recorded with
  | .error crash => ⟨f, c.countConnectFailure, .broken crash, notes⟩
  | .ok _ =>
    match f.pacing.reported with
    | .error crash => ⟨f, c.countConnectFailure, .broken crash, notes⟩
    | .ok attempts =>
      f.rest c.countConnectFailure now
        (notes ++ [f.say .warn ("target " ++ target ++ " not ready after " ++
          Text.decimal attempts ++ " attempts, rotating")])

/-- A crash was caught. What it left is disposed of before the search goes on with `next`, and a
crash in doing so is caught by nobody. -/
def caught (f : Failover) (c : Counters) (a : Answers) (notes : List Note) (next : Turn) : Turn :=
  match a.disposal with
  | none => next
  | some crash => ⟨f, c, .broken crash, notes⟩

theorem exhausted_cases (f : Failover) (c : Counters) (now : Nat) (notes : List Note)
    (target : String) :
    (∃ text, f.exhausted c now notes target =
      f.rest c.countConnectFailure now (notes ++ [f.say .warn text])) ∨
    ∃ crash, f.exhausted c now notes target =
      ⟨f, c.countConnectFailure, .broken crash, notes⟩ := by
  unfold exhausted
  split
  · next crash _ => exact Or.inr ⟨crash, rfl⟩
  · split
    · next crash _ => exact Or.inr ⟨crash, rfl⟩
    · exact Or.inl ⟨_, rfl⟩

theorem caught_cases (f : Failover) (c : Counters) (a : Answers) (notes : List Note)
    (next : Turn) :
    f.caught c a notes next = next ∨
      ∃ crash, f.caught c a notes next = ⟨f, c, .broken crash, notes⟩ := by
  unfold caught
  split
  · exact Or.inl rfl
  · next crash _ => exact Or.inr ⟨crash, rfl⟩

/-- The delay after a poll is over: the next poll, if there is one. -/
def nextPoll (f : Failover) (c : Counters) (now : Nat) (notes : List Note) (v : Visit) : Turn :=
  if v.poll + 1 < v.attempts then
    ⟨f, c, .seeking (.dialing { v with poll := v.poll + 1 }), notes⟩
  else f.exhausted c now notes v.target

/-- After a poll that brought no live connection, the delay before the next one. -/
def pause (f : Failover) (c : Counters) (now : Nat) (notes : List Note) (v : Visit) : Turn :=
  match f.pacing.pollDelay v.poll with
  | .error crash => ⟨f, c, .broken crash, notes⟩
  | .ok delay => ⟨f, c, .seeking (.pausing v (now + delay.wait)), notes⟩

/-- The connection in use is given up; its target goes to the end of the rotation. -/
def retire (f : Failover) (c : Counters) (notes : List Note) (target : String)
    (conn : ConnId) : Turn :=
  ⟨{ f with active := none, rotation := f.rotation ++ [target] }, c.disconnected,
    .seeking (.dropping conn),
    notes ++ [f.say .info ("connection to " ++ target ++ " is no longer live, reconnecting")]⟩

/-- A live connection is found and put to use; its target leaves the rotation. -/
def settle (f : Failover) (c : Counters) (notes : List Note) (target : String)
    (conn : ConnId) : Turn :=
  ⟨{ f with active := some (target, conn), rotation := f.rotation.tail }, c.connected target,
    .found conn, notes ++ [f.say .info ("connected to target " ++ target)]⟩

def visit (f : Failover) (c : Counters) (now : Nat) : Turn :=
  match f.rotation with
  | [] => f.rest c now []
  | target :: _ =>
    match Endpoint.ofTarget target f.port with
    | .error fault => f.failed c now [] target fault
    | .ok endpoint =>
      match f.pacing.attempts with
      | .error crash => ⟨f, c, .broken crash, []⟩
      | .ok 0 => f.exhausted c now [] target
      | .ok attempts => ⟨f, c, .seeking (.dialing ⟨target, endpoint, attempts, 0⟩), []⟩

/-- The call that the search makes in its next step. -/
def call? (f : Failover) : Seek → Option Call
  | .verifying => f.active.map fun (_, conn) => .probe conn
  | .dropping conn => some (.release conn)
  | .dialing v => some (.dial v.endpoint f.credentials)
  | .probing _ conn => some (.probe conn)
  | .discarding _ conn => some (.release conn)
  | .lapsing _ conn _ => some (.release conn)
  | _ => none

/-- One step of a search, at a time and with the answers of the network. A suspended search goes on
when its time has come. -/
def step (f : Failover) (c : Counters) (now : Nat) (a : Answers) : Seek → Turn
  | .verifying =>
    match f.active with
    | none => ⟨f, c, .seeking .visiting, []⟩
    | some (target, conn) =>
      match a.probe with
      | .ok true => ⟨f, c, .found conn, [.probed conn a.probe]⟩
      | .ok false => f.retire c [.probed conn a.probe] target conn
      | .error crash =>
        f.caught c a [.probed conn a.probe]
          (f.retire c
            [.probed conn a.probe, f.say .warn ("liveness check on " ++ target ++ " failed: " ++
              (crash.asFault "liveness check").message)]
            target conn)
  | .dropping conn =>
    match a.release with
    | none => ⟨f, c, .seeking .visiting, [.released conn a.release]⟩
    | some crash => ⟨f, c, .broken crash, [.released conn a.release]⟩
  | .visiting => f.visit c now
  | .dialing v =>
    let notes := [.dialed v.endpoint f.credentials a.dial]
    match a.dial with
    | .done none => f.pause c now notes v
    | .done (some conn) => ⟨f, c, .seeking (.probing v conn), notes⟩
    | .refused fault => f.failed c now notes v.target fault
    | .crashed crash =>
      f.caught c a notes (f.failed c now notes v.target (crash.asFault "transport"))
  | .probing v conn =>
    let notes := [.probed conn a.probe]
    match a.probe with
    | .ok true => f.settle c notes v.target conn
    | .ok false => ⟨f, c, .seeking (.discarding v conn), notes⟩
    | .error crash => ⟨f, c, .seeking (.lapsing v conn crash), notes⟩
  | .discarding v conn =>
    let notes := [.released conn a.release]
    match a.release with
    | none => f.pause c now notes v
    | some crash =>
      f.caught c a notes (f.failed c now notes v.target (crash.asFault "transport"))
  | .lapsing v conn crash =>
    let notes := [.released conn a.release]
    f.caught c a notes (f.failed c now notes v.target (crash.asFault "transport"))
  | .pausing v wake =>
    if now < wake then ⟨f, c, .seeking (.pausing v wake), []⟩ else f.nextPoll c now [] v
  | .resting wake =>
    if now < wake then ⟨f, c, .seeking (.resting wake), []⟩
    else ⟨f.rotated, c, .seeking .visiting, []⟩

end Failover

end ClusterRelay
