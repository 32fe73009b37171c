import ClusterRelay.Relay
import ClusterRelay.Rehearsal.Stage

/-!
# Rehearsing against a clock

A link is run against a network with a clock that is not real: work takes no time, and the clock
moves only when the link waits, and then at once to the moment that it waits for. `Partner` is any
network with a state of its own.

Nothing bounds the number of steps that a link can take in no time at all, so a rehearsal has a
budget of steps; the budgets in use here exceed every run that ends.
-/

namespace ClusterRelay.Rehearsal

/-- A network with a state: how it answers a call at a time. -/
abbrev Partner (σ : Type) := σ → Nat → Call → Answers × σ

/-- More steps than a rehearsal takes. -/
def budget : Nat := 100000000

variable {σ : Type}

/-- A forwarder on its way, the state of its network, and the lines that were logged. -/
structure Scene (σ : Type) where
  forwarder : Forwarder
  network : σ
  lines : Array LogLine := #[]

namespace Scene

def happen (s : Scene σ) (e : Event) : Scene σ :=
  let (forwarder, notes) := s.forwarder.step e
  { s with forwarder, lines := s.lines ++ linesOf notes }

/-- The forwarder works for one step, and the network answers its call if it makes one. -/
def work (partner : Partner σ) (s : Scene σ) : Scene σ :=
  match s.forwarder.call? with
  | none => s.happen (.work {})
  | some call =>
    let (answers, network) := partner s.network s.forwarder.now call
    { s with network }.happen (.work answers)

/-- The forwarder works until it can do no more at the present time. When it waits out a delay, the
clock goes to the end of the delay as long as `patience` allows for a wait from one time to
another. -/
def advance (partner : Partner σ) (patience : Nat → Nat → Bool) : Nat → Scene σ → Scene σ
  | 0, s => s
  | fuel + 1, s =>
    if s.forwarder.ready then advance partner patience fuel (s.work partner)
    else
      match s.forwarder.wake? with
      | some wake =>
        if patience s.forwarder.now wake then
          advance partner patience fuel (s.happen (.elapse wake))
        else s
      | none => s

/-- The forwarder does what it can without any waiting. -/
def settle (partner : Partner σ) (s : Scene σ) : Scene σ :=
  s.advance partner (fun _ _ => false) budget

/-- Time passes up to a moment, and the forwarder does what falls due by then. -/
def runUntil (partner : Partner σ) (s : Scene σ) (moment : Nat) : Scene σ :=
  let s := s.advance partner (fun _ wake => wake ≤ moment) budget
  (s.happen (.elapse moment)).settle partner

/-- The forwarder goes on through all delays that are shorter than this many milliseconds. -/
def runThrough (partner : Partner σ) (s : Scene σ) (bound : Nat) : Scene σ :=
  s.advance partner (fun now wake => wake < now + bound) budget

end Scene

/-! ## A search by itself -/

/-- A link's targets, the search in them, and the state of its network. -/
structure Search (σ : Type) where
  failover : Failover
  counters : Counters := {}
  now : Nat := 0
  network : σ
  lines : Array LogLine := #[]

namespace Search

/-- One step of the search. -/
def step (partner : Partner σ) (s : Search σ) (seek : Seek) : Search σ × Progress :=
  let (answers, network) : Answers × σ := match s.failover.call? seek with
    | none => ({}, s.network)
    | some call => partner s.network s.now call
  let turn := s.failover.step s.counters s.now answers seek
  ({ s with
      failover := turn.failover
      counters := turn.counters
      network
      lines := s.lines ++ linesOf turn.notes }, turn.progress)

/-- The search goes on until it has found a connection, or would have to wait beyond a moment. -/
def go (partner : Partner σ) (moment : Nat) : Nat → Search σ → Seek → Search σ × Option ConnId
  | 0, s, _ => (s, none)
  | fuel + 1, s, seek =>
    let onward (s : Search σ) :=
      match s.step partner seek with
      | (s, .seeking next) => go partner moment fuel s next
      | (s, .found conn) => (s, some conn)
      | (s, .broken _) => (s, none)
    match seek.wake? with
    | none => onward s
    | some wake =>
      if wake ≤ moment then onward { s with now := max s.now wake }
      else ({ s with now := max s.now moment }, none)

/-- A search that is given up after so many milliseconds. -/
def find (partner : Partner σ) (s : Search σ) (millis : Nat) : Search σ × Option ConnId :=
  go partner (s.now + millis) budget s .verifying

end Search

/-! ## A relay -/

/-- A relay on its way, and the state of its network. -/
structure Company (σ : Type) where
  relay : Relay
  network : σ

namespace Company

/-- The forwarders of a list of links go on, one after another, through all short delays. -/
def proceed (partner : Link → Partner σ) (bound : Nat) : List Link → σ → List Link × σ
  | [], network => ([], network)
  | l :: ls, network =>
    let scene : Scene σ := Scene.runThrough (partner l) { forwarder := l.forwarder, network } bound
    let (ls, network) := proceed partner bound ls scene.network
    ({ l with forwarder := scene.forwarder } :: ls, network)

/-- All forwarders go on through all short delays. -/
def settle (partner : Link → Partner σ) (c : Company σ) (bound : Nat) : Company σ :=
  let (links, network) := proceed partner bound c.relay.links c.network
  { relay := { c.relay with links }, network }

/-- Something happens to the relay. -/
def happen (c : Company σ) (e : RelayEvent) : Company σ × List LogLine :=
  let (relay, notes) := c.relay.step e
  ({ c with relay }, linesOf notes)

def join (c : Company σ) : Company σ × List LogLine :=
  let (relay, notes) := c.relay.join
  ({ c with relay }, linesOf notes)

def joinNamed (c : Company σ) (name : String) : Option (Except Fault Unit) × Company σ :=
  let (outcome, relay) := c.relay.joinNamed name
  (outcome, { c with relay })

end Company

end ClusterRelay.Rehearsal
