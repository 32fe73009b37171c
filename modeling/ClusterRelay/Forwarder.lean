import ClusterRelay.Backlog.Basic
import ClusterRelay.Failover
import ClusterRelay.RetryStack
import ClusterRelay.Wire.Packet

/-!
# The forwarder

The one consumer of a link's backlog. It takes a mutation in its hand, the latest failure before
anything new, finds a live connection, writes the mutation as a frame, submits the frame, and
probes the connection. If the connection is dead by then the mutation goes on the retry stack; if
anything else goes wrong on the way the mutation is dropped and counted as a fault; either way the
forwarder goes on. It ends when it is told to, wherever it is suspended then, and abandons what it
has not delivered. It also ends, broken, if a crash gets through to it: one of the pacing, of a
connection that is released while a new one is sought, or of what another crash left.

The forwarder is a machine that the events of its surroundings act upon: `Forwarder.step`. Mutations
are offered, time passes, the signal to stop is given, and now and then the forwarder gets to work,
one small step at a time, with at most one call on the network in a step. Every order of events is a
possible run, and what a run brought about is told by its notes.
-/

namespace ClusterRelay

/-- The signal to stop. -/
inductive Signal where
  | awaited
  | given
  /-- It has not been given, and whoever could give it is gone, which comes to the same. -/
  | orphaned
deriving DecidableEq, Repr

inductive ForwarderEnd where
  | returned
  | crashed (crash : Crash)
deriving DecidableEq, Repr

/-- Where a forwarder stands. -/
inductive Phase where
  | idle
  | choosing
  /-- Nothing is to be retried: suspended until there is a mutation in the backlog. -/
  | waiting
  /-- In search of a connection for the mutation in hand. -/
  | seeking (parcel : Parcel) (seek : Seek)
  /-- About to submit the mutation in hand. -/
  | submitting (parcel : Parcel) (conn : ConnId)
  /-- About to probe the connection after submission. -/
  | confirming (parcel : Parcel) (conn : ConnId)
  /-- Stopped; the connection in use is to be released. -/
  | closing (conn : ConnId)
  | ended (how : ForwarderEnd)
deriving DecidableEq

/-- A forwarder and all that belongs to it. -/
structure Forwarder where
  failover : Failover
  backlog : Backlog Parcel
  retries : RetryStack Parcel := {}
  counters : Counters := {}
  state : LinkState := .running
  signal : Signal := .awaited
  phase : Phase := .idle
  admitted : Nat := 0
  now : Nat := 0

/-- What can happen to a forwarder. -/
inductive Event where
  | start
  | offer (mutation : Mutation)
  | stop
  | orphan
  /-- Time passes, up to this moment. -/
  | elapse (moment : Nat)
  | work (answers : Answers)

namespace Forwarder

def link (w : Forwarder) : String := w.failover.link

def say (w : Forwarder) (line : String → LogLine) (text : String) : Note :=
  .logged (line (aboutLink w.link text))

/-- The signal to stop is there, in one way or the other. -/
def stopping (w : Forwarder) : Bool := w.signal ≠ .awaited

/-! ## What the surroundings do -/

/-- The forwarder is started. Only the first start counts. -/
def begin (w : Forwarder) : Forwarder × List Note :=
  match w.phase with
  | .idle => ({ w with phase := .choosing, state := .running }, [w.say .info "forwarder started"])
  | _ => (w, [])

def offer (w : Forwarder) (m : Mutation) : Forwarder × List Note :=
  let parcel : Parcel := ⟨w.admitted, m⟩
  let (evicted, backlog) := w.backlog.offer parcel
  ({ w with backlog, admitted := w.admitted + 1 },
    .admitted parcel :: (evicted.map Note.evicted).toList ++
      (backlog.report w.link evicted).map Note.logged)

/-- The signal to stop is given, unless there is nobody left to give it. -/
def signalStop (w : Forwarder) : Forwarder :=
  match w.signal with
  | .awaited => { w with signal := .given }
  | _ => w

/-- Whoever could give the signal goes away. A signal that was given stays given. -/
def orphan (w : Forwarder) : Forwarder :=
  match w.signal with
  | .awaited => { w with signal := .orphaned }
  | _ => w

/-- Time passes. It never goes back. -/
def elapse (w : Forwarder) (moment : Nat) : Forwarder :=
  { w with now := max w.now moment }

/-! ## What the forwarder does -/

def finish (w : Forwarder) : Forwarder × List Note :=
  ({ w with
      counters := { w.counters with inFlight := false }
      state := .stopped
      phase := match w.failover.active with
        | some (_, conn) => .closing conn
        | none => .ended .returned },
    [w.say .info "forwarder stopped"])

/-- The forwarder ends because a crash got through to it. -/
def breakDown (w : Forwarder) (crash : Crash) : Forwarder × List Note :=
  ({ w with
      counters := { w.counters.countFault "panic: forwarder loop unwound" with inFlight := false }
      state := .stopped
      phase := .ended (.crashed crash) },
    [w.say .error "forwarder loop panicked, link is stopped"])

def takeUp (w : Forwarder) (p : Parcel) : Forwarder :=
  { w with counters := { w.counters with inFlight := true }, phase := .seeking p .verifying }

/-- The retry stack is replaced, and its new size published. -/
def withRetries (w : Forwarder) (retries : RetryStack Parcel) : Forwarder :=
  { w with
    retries
    counters := { w.counters with retryDepth := UInt64.ofNat retries.size } }

/-- What failed last is chosen before anything new. -/
def choose (w : Forwarder) : Forwarder × List Note :=
  if w.signal = .given then w.finish
  else
    match w.retries.pop? with
    | some (p, retries) => ((w.withRetries retries).takeUp p, [])
    | none => ({ w with phase := .waiting }, [])

/-- The oldest mutation of the backlog is chosen, unless it is time to stop. -/
def await (w : Forwarder) : Forwarder × List Note :=
  if w.stopping then w.finish
  else
    match w.backlog.take? with
    | some (p, backlog) => ({ w with backlog }.takeUp p, [])
    | none => (w, [])

/-- The places in a search where the signal to stop is heeded: at its beginning, and wherever it is
suspended. -/
def heedsSignal : Seek → Bool
  | .verifying => true
  | .pausing _ _ => true
  | .resting _ => true
  | _ => false

def seek (w : Forwarder) (p : Parcel) (s : Seek) (a : Answers) : Forwarder × List Note :=
  if heedsSignal s && w.stopping then w.finish
  else
    let turn := w.failover.step w.counters w.now a s
    let w := { w with failover := turn.failover, counters := turn.counters }
    match turn.progress with
    | .seeking next => ({ w with phase := .seeking p next }, turn.notes)
    | .found conn => ({ w with phase := .submitting p conn }, turn.notes)
    | .broken crash =>
      let (w, last) := w.breakDown crash
      (w, turn.notes ++ last)

def putDown (w : Forwarder) : Forwarder :=
  { w with counters := { w.counters with inFlight := false }, phase := .choosing }

def delivered (w : Forwarder) (p : Parcel) : Forwarder × List Note :=
  ({ w with counters := w.counters.countSent }.putDown, [.attempted p .sent])

/-- The connection was dead after the mutation in hand had been submitted: it is to be retried. -/
def returned (w : Forwarder) (p : Parcel) : Forwarder × List Note :=
  let target := w.failover.activeTarget.getD "<none>"
  (({ w with counters := w.counters.countSendFailure }.withRetries (w.retries.push p)).putDown,
    [.attempted p .dead,
      w.say .warn ("connection to " ++ target ++ " died after submit, requeueing update")])

def dropped (w : Forwarder) (p : Parcel) (fault : Fault) : Forwarder × List Note :=
  ({ w with counters := w.counters.countFault fault.description }.putDown,
    [.attempted p (.faulted fault),
      w.say .error ("failed to forward update, dropping it: " ++ fault.message)])

/-- A crash was caught in an attempt at delivery. What it left is disposed of before it is handled,
and a crash in doing so is caught by nobody. -/
def caught (w : Forwarder) (a : Answers) (handled : Forwarder × List Note) :
    Forwarder × List Note :=
  match a.disposal with
  | none => handled
  | some crash => w.breakDown crash

theorem caught_cases (w : Forwarder) (a : Answers) (handled : Forwarder × List Note) :
    w.caught a handled = handled ∨ ∃ crash, w.caught a handled = w.breakDown crash := by
  unfold caught
  split
  · exact Or.inl rfl
  · next crash _ => exact Or.inr ⟨crash, rfl⟩

def frameOf (p : Parcel) : Except Fault ByteArray := (Wire.Packet.merge p.mutation).frame

def submit (w : Forwarder) (p : Parcel) (conn : ConnId) (a : Answers) : Forwarder × List Note :=
  match frameOf p with
  | .error fault => w.dropped p fault
  | .ok frame =>
    let note := Note.submitted conn frame a.submit
    match a.submit with
    | .done () => ({ w with phase := .confirming p conn }, [note])
    | .refused fault =>
      let (w, notes) := w.dropped p fault
      (w, note :: notes)
    | .crashed crash =>
      let (w, notes) := w.caught a (w.dropped p (crash.asFault "delivery"))
      (w, note :: notes)

/-- The connection is probed after submission. -/
def confirm (w : Forwarder) (p : Parcel) (conn : ConnId) (a : Answers) : Forwarder × List Note :=
  let (w, notes) := match a.probe with
    | .ok true => w.delivered p
    | .ok false => w.returned p
    | .error crash => w.caught a (w.dropped p (crash.asFault "delivery"))
  (w, .probed conn a.probe :: notes)

/-- The connection in use is released after the forwarder has stopped. -/
def close (w : Forwarder) (conn : ConnId) (a : Answers) : Forwarder × List Note :=
  ({ w with
      failover := { w.failover with active := none }
      phase := .ended (match a.release with | none => .returned | some crash => .crashed crash) },
    [.released conn a.release])

def work (w : Forwarder) (a : Answers) : Forwarder × List Note :=
  match w.phase with
  | .idle => (w, [])
  | .choosing => w.choose
  | .waiting => w.await
  | .seeking p s => w.seek p s a
  | .submitting p conn => w.submit p conn a
  | .confirming p conn => w.confirm p conn a
  | .closing conn => w.close conn a
  | .ended _ => (w, [])

/-- What an event does to a forwarder, and the notes about it. -/
def step (w : Forwarder) : Event → Forwarder × List Note
  | .start => w.begin
  | .offer m => w.offer m
  | .stop => (w.signalStop, [])
  | .orphan => (w.orphan, [])
  | .elapse moment => (w.elapse moment, [])
  | .work a => w.work a

def run (w : Forwarder) : List Event → Forwarder × List Note
  | [] => (w, [])
  | e :: es =>
    let (w, notes) := w.step e
    let (w, others) := w.run es
    (w, notes ++ others)

/-! ## What can be seen from outside -/

/-- The call that the forwarder makes in its next step. -/
def call? (w : Forwarder) : Option Call :=
  match w.phase with
  | .seeking _ s => if heedsSignal s && w.stopping then none else w.failover.call? s
  | .submitting p conn =>
    match frameOf p with
    | .ok frame => some (.submit conn frame)
    | .error _ => none
  | .confirming _ conn => some (.probe conn)
  | .closing conn => some (.release conn)
  | _ => none

/-- The forwarder is suspended: it waits for a mutation or for a delay to pass. -/
def suspended (w : Forwarder) : Bool :=
  match w.phase with
  | .waiting => true
  | .seeking _ s => s.wake?.isSome
  | _ => false

/-- The next step of work changes something, at this time. -/
def ready (w : Forwarder) : Bool :=
  match w.phase with
  | .idle | .ended _ => false
  | .waiting => w.stopping || !w.backlog.isEmpty
  | .seeking _ s =>
    match s.wake? with
    | some wake => w.stopping || wake ≤ w.now
    | none => true
  | _ => true

/-- The time at which a forwarder that waits out a delay goes on by itself. -/
def wake? (w : Forwarder) : Option Nat :=
  match w.phase with
  | .seeking _ s => s.wake?
  | _ => none

def ofParts (failover : Failover) (backlog : Backlog Parcel) : Forwarder := { failover, backlog }

end Forwarder

end ClusterRelay
