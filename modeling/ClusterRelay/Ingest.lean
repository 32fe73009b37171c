import ClusterRelay.Log
import ClusterRelay.Wire.Decode
import ClusterRelay.Wire.Framer

/-!
# Ingest

The receiving end of a link. A peer opens its stream with a handshake; if credentials are expected
it has to show exactly those. The merges that follow are applied one by one, in the name of the
group that the handshake presented, whatever later handshakes say. The session ends with the stream,
or with the first thing that is amiss, and what was applied by then stays applied.

A session is fed chunk by chunk, and how the stream is cut into chunks makes no difference.
-/

namespace ClusterRelay.Ingest

/-- A mutation that was applied, and the group in whose name. -/
structure Applied where
  group : String
  mutation : Mutation
deriving DecidableEq, Inhabited

/-- How far a session has come. -/
inductive Stage where
  | greeting
  /-- The peer belongs to this group. -/
  | serving (group : String)
  | refused (fault : Fault)
deriving DecidableEq

/-- A session with one peer. -/
structure Session where
  /-- The credentials that the peer has to show, or none if any will do. -/
  expected : Option Credentials
  framer : Wire.Framer := {}
  stage : Stage := .greeting
  applied : Array Applied := #[]
  /-- The number of mutations that were applied, as the session counts them. -/
  count : UInt64 := 0
  lines : Array LogLine := #[]

namespace Session

def accepts (expected : Option Credentials) (presented : Credentials) : Bool :=
  match expected with
  | none => true
  | some c => presented.password == c.password && presented.group == c.group

def greet (s : Session) : Wire.Packet → Session
  | .auth presented =>
    if accepts s.expected presented then
      { s with
        stage := .serving presented.group
        lines := s.lines.push
          (.info ("[WAN-RX] peer authenticated as group " ++ presented.group)) }
    else { s with stage := .refused (.authentication presented.group) }
  | .merge _ => { s with stage := .refused (.authentication "<missing handshake>") }

def serve (s : Session) (group : String) : Wire.Packet → Session
  | .merge m => { s with applied := s.applied.push ⟨group, m⟩, count := s.count + 1 }
  | .auth _ => { s with lines := s.lines.push (.warn "[WAN-RX] ignoring repeated handshake") }

/-- What a session makes of the body of a frame. A session that is over takes no notice. -/
def receive (s : Session) (body : ByteArray) : Session :=
  match s.stage with
  | .refused _ => s
  | .greeting =>
    match Wire.Packet.ofBody body with
    | .ok packet => s.greet packet
    | .error defect => { s with stage := .refused defect.fault }
  | .serving group =>
    match Wire.Packet.ofBody body with
    | .ok packet => s.serve group packet
    | .error defect => { s with stage := .refused defect.fault }

def feed (s : Session) (chunk : ByteArray) : Session :=
  let (bodies, framer) := s.framer.feed chunk
  bodies.foldl receive { s with framer }

def feedAll (s : Session) (chunks : List ByteArray) : Session := chunks.foldl feed s

/-- How the session ends when the stream ends: with the number of mutations applied, or a fault. -/
def result (s : Session) (ending : Wire.StreamEnd) : Except Fault UInt64 :=
  match s.stage with
  | .refused fault => .error fault
  | .greeting =>
    match s.framer.left.verdict ending with
    | some fault => .error fault
    | none => .error (.decoding "connection closed before handshake")
  | .serving _ =>
    match s.framer.left.verdict ending with
    | some fault => .error fault
    | none => .ok s.count

/-- A session with one peer from its first chunk to the end of its stream. -/
def ofChunks (expected : Option Credentials) (chunks : List ByteArray) : Session :=
  feedAll { expected } chunks

end Session

/-! ## Listening for peers -/

/-- Something that waits for peers until it is told to stop. -/
structure Listener where
  running : Option Bool := none
  flagged : Bool := false
  /-- Nobody is left who could take the signal up or down. -/
  orphaned : Bool := false
deriving DecidableEq, Repr

inductive ListenerEvent where
  | run
  | raise
  | lower
  | orphan
deriving DecidableEq, Repr

namespace Listener

/-- The line about a listener that is bound to an address. -/
def announcement (address : String) : LogLine := .info ("[WAN-RX] listening on " ++ address)

/-- A listener that runs stops as soon as the signal is up, or can never come. -/
def heed (l : Listener) : Listener × List LogLine :=
  if l.running = some true ∧ (l.flagged ∨ l.orphaned) then
    ({ l with running := some false }, [.info "[WAN-RX] receiver stopped"])
  else (l, [])

def step (l : Listener) : ListenerEvent → Listener × List LogLine
  | .run => heed (match l.running with | none => { l with running := some true } | some _ => l)
  | .raise => heed (if l.orphaned then l else { l with flagged := true })
  | .lower => heed (if l.orphaned then l else { l with flagged := false })
  | .orphan => heed { l with orphaned := true }

end Listener

end ClusterRelay.Ingest
