import ClusterRelay.Network

/-!
# Scripted hosts

A network that plays a script. Every host has a list of reactions, used up one by one as it is
dialed; a reaction may be a connection, and that connection has a script of its own: what its probes
say, what its submissions do, and whether releasing it ends in a crash. A host whose connection is
still held and has not died hands out that connection again.

The stage keeps a record of the calls that were played.
-/

namespace ClusterRelay.Rehearsal

/-- Ways to break down. -/
inductive Breakdown where
  /-- A text is left. -/
  | leaving (text : String)
  /-- A text is left, and behind it the name of the place. -/
  | naming (text : String)
  /-- No text is left. -/
  | mute
deriving DecidableEq, Repr

/-- The crash in which a breakdown at a place ends. -/
def Breakdown.crash (place : String) : Breakdown → Crash
  | leaving text => ⟨some text⟩
  | naming text => ⟨some (text ++ place)⟩
  | mute => ⟨none⟩

/-- What one probe says. -/
inductive ProbeCue where
  | live
  /-- Not live, this once. -/
  | dead
  | breaks (b : Breakdown)
deriving DecidableEq, Repr

/-- What one submission does. -/
inductive SubmitCue where
  | accepts
  /-- The frame is accepted, and then the connection dies. -/
  | dies
  | refuses (fault : Fault)
  | breaks (b : Breakdown)
deriving DecidableEq, Repr

/-- The script of a connection. -/
structure ConnScript where
  probes : List ProbeCue := []
  submits : List SubmitCue := []
  /-- What happens when nobody holds the connection any more. -/
  onRelease : Option Breakdown := none
deriving DecidableEq, Repr

/-- What a host does when it is dialed. -/
inductive DialCue where
  | pending
  | refuses (fault : Fault)
  | breaks (b : Breakdown)
  | connects (script : ConnScript)
deriving DecidableEq, Repr

/-- A connection on the stage. -/
structure Actor where
  address : String
  /-- The number of the connection among those made to its address. -/
  number : Nat
  script : ConnScript
  died : Bool := false
  holders : Nat := 1
deriving DecidableEq, Repr

namespace Actor

/-- What the script calls the connection. -/
def label (a : Actor) : String := a.address ++ "#" ++ Text.decimal a.number

/-- What the connection says when its script says no more. -/
def lastWord (a : Actor) : ProbeCue := if a.died then .dead else .live

def present (a : Actor) : Bool := 0 < a.holders && !a.died

end Actor

/-- A host: its reactions, each with the number of times that it is left to be played, the number of
connections that it made, and the latest of them. -/
structure Host where
  cues : List (DialCue × Nat)
  made : Nat := 0
  latest : Option ConnId := none
deriving DecidableEq, Repr

namespace Host

/-- The next reaction of a host and the host after it. A host without reactions left is pending. -/
def next (h : Host) : DialCue × Host :=
  match h.cues.dropWhile (·.2 = 0) with
  | [] => (.pending, { h with cues := [] })
  | (cue, n) :: cues => (cue, { h with cues := (cue, n - 1) :: cues })

end Host

/-- A call that was played, with the reaction to it. -/
inductive Played where
  /-- An address was dialed; without a reaction a connection was handed out again. -/
  | dialed (address password : String) (cue : Option DialCue)
  | probed (label : String) (cue : ProbeCue)
  | submitted (label : String) (cue : SubmitCue) (frame : ByteArray)

/-- The network while it plays. -/
structure Stage where
  hosts : List (String × Host)
  actors : Array Actor := #[]
  record : Array (Nat × Played) := #[]

namespace Stage

def host (s : Stage) (address : String) : Host := (s.hosts.lookup address).getD { cues := [] }

def withHost (s : Stage) (address : String) (h : Host) : Stage :=
  { s with hosts := (address, h) :: s.hosts.filter (·.1 ≠ address) }

def note (s : Stage) (now : Nat) (p : Played) : Stage :=
  { s with record := s.record.push (now, p) }

/-- The connection that a host can hand out again. -/
def current? (s : Stage) (address : String) : Option ConnId :=
  match (s.host address).latest with
  | none => none
  | some conn =>
    match s.actors[conn]? with
    | some actor => if actor.present then some conn else none
    | none => none

def withActor (s : Stage) (conn : ConnId) (actor : Actor) : Stage :=
  { s with actors := s.actors.setIfInBounds conn actor }

def handOut (s : Stage) (conn : ConnId) : Stage :=
  { s with actors := s.actors.modify conn fun a => { a with holders := a.holders + 1 } }

def make (s : Stage) (address : String) (host : Host) (script : ConnScript) : Stage :=
  let number := host.made + 1
  { s with actors := s.actors.push { address, number, script } }.withHost address
    { host with made := number, latest := some s.actors.size }

def dial (s : Stage) (now : Nat) (address password : String) : Outcome (Option ConnId) × Stage :=
  match s.current? address with
  | some conn =>
    (.done (some conn), (s.handOut conn).note now (.dialed address password none))
  | none =>
    let (cue, host) := (s.host address).next
    let s := (s.withHost address host).note now (.dialed address password (some cue))
    match cue with
    | .pending => (.done none, s)
    | .refuses fault => (.refused fault, s)
    | .breaks b => (.crashed (b.crash address), s)
    | .connects script => (.done (some s.actors.size), s.make address host script)

def probe (s : Stage) (now : Nat) (conn : ConnId) : Except Crash Bool × Stage :=
  match s.actors[conn]? with
  | none => (.ok false, s)
  | some actor =>
    let (cue, probes) := match actor.script.probes with
      | [] => (actor.lastWord, [])
      | cue :: probes => (cue, probes)
    let s := (s.withActor conn { actor with script := { actor.script with probes } }).note now
      (.probed actor.label cue)
    match cue with
    | .live => (.ok true, s)
    | .dead => (.ok false, s)
    | .breaks b => (.error (b.crash actor.label), s)

def submit (s : Stage) (now : Nat) (conn : ConnId) (frame : ByteArray) : Outcome Unit × Stage :=
  match s.actors[conn]? with
  | none => (.done (), s)
  | some actor =>
    let (cue, submits) := match actor.script.submits with
      | [] => (SubmitCue.accepts, [])
      | cue :: submits => (cue, submits)
    let actor := { actor with script := { actor.script with submits } }
    let s := (s.withActor conn actor).note now (.submitted actor.label cue frame)
    match cue with
    | .accepts => (.done (), s)
    | .dies => (.done (), s.withActor conn { actor with died := true })
    | .refuses fault => (.refused fault, s)
    | .breaks b => (.crashed (b.crash actor.label), s)

/-- One of those who hold a connection lets go of it. -/
def release (s : Stage) (conn : ConnId) : Option Crash × Stage :=
  match s.actors[conn]? with
  | none => (none, s)
  | some actor =>
    let s := s.withActor conn { actor with holders := actor.holders - 1 }
    if actor.holders = 1 then (actor.script.onRelease.map (·.crash actor.label), s) else (none, s)

/-- The network plays its part in a call. -/
def answer (s : Stage) (now : Nat) : Call → Answers × Stage
  | .dial endpoint credentials =>
    let (dial, s) := s.dial now (toString endpoint) credentials.password
    ({ dial }, s)
  | .probe conn =>
    let (probe, s) := s.probe now conn
    ({ probe }, s)
  | .submit conn frame =>
    let (submit, s) := s.submit now conn frame
    ({ submit }, s)
  | .release conn =>
    let (release, s) := s.release conn
    ({ release }, s)

/-- The connection to an address dies, if there is one that somebody holds. -/
def kill (s : Stage) (address : String) : Bool × Stage :=
  match s.current? address with
  | none => (false, s)
  | some conn => (true, { s with actors := s.actors.modify conn fun a => { a with died := true } })

end Stage

end ClusterRelay.Rehearsal
