import ClusterRelay.CommandLine.Forwarding
import ClusterRelay.CommandLine.Reception

/-!
# Rehearsing a command

A command is run with an input that is known beforehand, no peer in reach, and a clock that is not
real. Out of reach means that dialing never brings a connection.
-/

namespace ClusterRelay.Rehearsal

open CommandLine

/-- A forwarding command on its way, and what was remarked. -/
structure Errand where
  forwarding : Forwarding
  remarks : Array Remark := #[]

namespace Errand

def happen (s : Errand) (e : ForwardingEvent) : Errand :=
  let (forwarding, remarks) := s.forwarding.step e
  { forwarding, remarks := s.remarks ++ remarks }

/-- The link at a place works for so many steps at most, with no peer in reach. -/
def toilAt (place : Nat) : Nat → Errand → Errand
  | 0, s => s
  | fuel + 1, s =>
    match s.forwarding.relay.links[place]? with
    | none => s
    | some l => if l.forwarder.ready then toilAt place fuel (s.happen (.work place {})) else s

/-- More steps than a link takes without a pause when no peer is in reach. -/
def stretch : Nat := 100

def toil (s : Errand) : Errand :=
  (List.range s.forwarding.relay.links.length).foldl (fun s place => s.toilAt place stretch) s

/-- The command reads its input, and the links work after every line. The command is interrupted when
so many lines have turned out malformed. -/
def read (interruptAfter : Option Nat) : List ByteArray → Errand → Errand
  | [], s => s.happen .endOfInput
  | line :: lines, s =>
    let s := (s.happen (.line line)).toil
    match interruptAfter, InputLine.ofBytes line with
    | some (n + 1), .malformed =>
      if n = 0 then s.happen .interrupt else read (some n) lines s
    | _, _ => read interruptAfter lines s

def drain : Nat → Errand → Errand
  | 0, s => s
  | fuel + 1, s =>
    match s.forwarding.stage with
    | .draining _ _ =>
      let s := s.toil.happen .look
      drain fuel (s.happen (.elapse (s.forwarding.now + Forwarding.lookEvery)))
    | _ => s

/-- The command waits for its links and ends. There is a look every tenth of a second, and three
more are enough to find the links idle, or the time over. -/
def finish (s : Errand) : Errand :=
  ((s.drain (s.forwarding.drainSeconds * 10 + 3)).toil).happen .conclude

def ofForwarding (n : NodeSettings) (drainSeconds : Nat) (lines : List ByteArray)
    (interruptAfter : Option Nat) : Option Exit × List Remark :=
  match Forwarding.start n drainSeconds with
  | (.error exit, remarks) => (some exit, remarks)
  | (.ok forwarding, remarks) =>
    let s := (read interruptAfter lines { forwarding, remarks := remarks.toArray }).finish
    (s.forwarding.exit?, s.remarks.toList)

end Errand

/-- The whole run of a receiving command that is interrupted as soon as it listens. -/
def receiving (address : String) (credentials : Credentials) : Option Exit × List Remark :=
  match Reception.start address credentials with
  | (.error complaint, remarks) => (some (.failure complaint), remarks)
  | (.ok r, remarks) =>
    let (r, others) := r.interrupt
    (r.exit?, remarks ++ others)

end ClusterRelay.Rehearsal
