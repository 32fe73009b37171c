import ClusterRelay.CommandLine.Exit
import ClusterRelay.CommandLine.InputLine
import ClusterRelay.Relay
import ClusterRelay.Settings.Load
import ClusterRelay.Status.Json

/-!
# The forwarding command

Every mutation in the input is committed to the relay. After the input has ended, the command waits
until all links have been found idle twice in a row, but not beyond its deadline; when it is
interrupted, it does not wait. Then the links are stopped, and once all of them have ended the
command prints their status.

The command is a machine. Lines of input, looks at the links, the passing of time and the work of
the links are its events, in any order.
-/

namespace ClusterRelay.CommandLine

/-- How far the command has come. -/
inductive Stage where
  | reading
  /-- The input has ended; the links were idle at so many looks in a row. -/
  | draining (deadline idleLooks : Nat)
  | stopping
  | ended (exit : Exit)
deriving DecidableEq, Repr

/-- A run of the command. -/
structure Forwarding where
  relay : Relay
  drainSeconds : Nat
  /-- The number of mutations that were committed. -/
  admitted : UInt64 := 0
  /-- The time, in milliseconds. -/
  now : Nat := 0
  stage : Stage := .reading

/-- What can happen in a run of the command. -/
inductive ForwardingEvent where
  | line (bytes : ByteArray)
  | endOfInput
  | interrupt
  | look
  | conclude
  /-- Time passes, up to this moment. -/
  | elapse (moment : Nat)
  /-- The link at this place works for one step. -/
  | work (place : Nat) (answers : Answers)

namespace Forwarding

def standaloneLine : LogLine :=
  .warn "No WAN links configured (standalone mode), nothing will be replicated"

/-- The command begins: it checks the settings and starts the links. -/
def start (n : NodeSettings) (drainSeconds : Nat) : Except Exit Forwarding × List Remark :=
  let first := if n.links = [] then [Remark.own standaloneLine] else []
  match Relay.start n with
  | .refused fault => (.error (.failure (.ofFault fault)), first)
  | .crashed _ => (.error .crashed, first)
  | .done (relay, lines) => (.ok { relay, drainSeconds }, first ++ Remark.ofLines lines)

/-- The command with the relay after an operation. -/
def withRelay (f : Forwarding) (result : Relay × List Note) : Forwarding × List Remark :=
  ({ f with relay := result.1 }, result.2.map .noted)

def take (f : Forwarding) (line : ByteArray) : Forwarding × List Remark :=
  match InputLine.ofBytes line with
  | .blank => (f, [])
  | .mutation m => { f with admitted := f.admitted + 1 }.withRelay (f.relay.commit m)
  | .malformed =>
    (f, [.own (.warn ("Skipping malformed mutation line: " ++ LogLine.unstated))])
  | .garbled => ({ f with stage := .ended (.failure .other) }, [])

def summary (f : Forwarding) (interrupted : Bool) : Remark :=
  .own (.info ("Input finished admitted=" ++ Text.decimal f.admitted.toNat ++ " interrupted=" ++
    (if interrupted then "true" else "false")))

def halt (f : Forwarding) : Forwarding × List Remark :=
  { f with stage := .stopping }.withRelay f.relay.stop

def finishInput (f : Forwarding) : Forwarding × List Remark :=
  let stage := if Delay.clockRange ≤ f.drainSeconds then Stage.ended .beyondClock
    else .draining (f.now + f.drainSeconds * 1000) 0
  ({ f with stage }, [f.summary false])

def interrupt (f : Forwarding) : Forwarding × List Remark :=
  let (g, remarks) := f.halt
  (g, f.summary true :: remarks)

/-- The looks that have to find all links idle, in a row. -/
def looksNeeded : Nat := 2

/-- The milliseconds between two looks. -/
def lookEvery : Nat := 100

/-- The command looks whether its links are idle, or finds that it has looked long enough. -/
def look (f : Forwarding) (deadline idleLooks : Nat) : Forwarding × List Remark :=
  if looksNeeded ≤ idleLooks then f.halt
  else if deadline ≤ f.now then
    let (g, remarks) := f.halt
    (g, .own (.warn "Drain timeout elapsed with updates still pending") :: remarks)
  else
    let idleLooks := if f.relay.isIdle then idleLooks + 1 else 0
    ({ f with stage := .draining deadline idleLooks }, [])

def hasEnded (l : Link) : Bool :=
  match l.forwarder.phase with
  | .ended _ => true
  | _ => false

/-- What the command prints in the end. -/
def report (r : Relay) : String := r.status.document.tall ++ "\n"

/-- Once all links have ended, the command ends too. -/
def conclude (f : Forwarding) : Forwarding × List Remark :=
  if f.relay.links.all hasEnded then
    let (relay, notes) := f.relay.join
    ({ f with relay, stage := .ended { code := 0, output := report relay } }, notes.map .noted)
  else (f, [])

def elapse (f : Forwarding) (moment : Nat) : Forwarding × List Remark :=
  { f with now := max f.now moment }.withRelay
    (f.relay.withLinks (Relay.onLinks (·.onForwarder (.elapse moment)) f.relay.links))

def step (f : Forwarding) (e : ForwardingEvent) : Forwarding × List Remark :=
  match f.stage, e with
  | .ended _, _ => (f, [])
  | _, .elapse moment => f.elapse moment
  | _, .work place answers => f.withRelay (f.relay.step (.forwarder place (.work answers)))
  | .reading, .line bytes => f.take bytes
  | .reading, .endOfInput => f.finishInput
  | .reading, .interrupt => f.interrupt
  | .draining deadline idleLooks, .look => f.look deadline idleLooks
  | .stopping, .conclude => f.conclude
  | _, _ => (f, [])

def run (f : Forwarding) : List ForwardingEvent → Forwarding × List Remark
  | [] => (f, [])
  | e :: es =>
    let (f, remarks) := f.step e
    let (f, others) := f.run es
    (f, remarks ++ others)

def exit? (f : Forwarding) : Option Exit :=
  match f.stage with
  | .ended exit => some exit
  | _ => none

end Forwarding

end ClusterRelay.CommandLine
