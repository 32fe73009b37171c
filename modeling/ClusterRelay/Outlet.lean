import ClusterRelay.Endpoint
import ClusterRelay.Wire.Packet

/-!
# Outlets

The sending side of one connection. The handshake is the first frame in line; frames submitted later
queue up behind it, and a writer puts them on the socket byte by byte. Submitting never waits and
never fails: what is submitted after the writer has given up is thrown away.

An outlet is live until its writer fails or its reader learns that the peer is gone. Nothing that
the peer may send makes any difference.
-/

namespace ClusterRelay

/-- What the writer of an outlet is doing. -/
inductive Writer where
  /-- It has put all of the frames before on the socket, and this much of a frame is left. -/
  | writing (left : ByteArray)
  | ready
  | failed
  /-- Nobody can submit any more, and all frames are written. -/
  | finished
deriving DecidableEq

/-- The sending side of one connection. -/
structure Outlet where
  /-- Frames in line. -/
  queue : List ByteArray
  writer : Writer := .ready
  /-- All that was put on the socket. -/
  written : ByteArray := ByteArray.empty
  /-- No failure has been noticed. -/
  sound : Bool := true
  /-- Somebody can still submit. -/
  held : Bool := true

/-- What can happen to an outlet. -/
inductive OutletEvent where
  | submit (frame : ByteArray)
  /-- The writer puts at most so many bytes on the socket, or takes the next frame. -/
  | write (count : Nat)
  /-- The writer fails after at most so many bytes of the frame that it is writing. -/
  | failWrite (count : Nat)
  /-- The reader learns that the peer is gone. -/
  | loseReader
  | hear (bytes : ByteArray)
  /-- Nobody can submit any more. -/
  | letGo

namespace Outlet

def start (credentials : Credentials) : Except Fault Outlet := do
  let handshake ← (Wire.Packet.auth credentials).frame
  .ok { queue := [handshake] }

/-- The writer still takes frames. -/
def accepting (o : Outlet) : Bool :=
  match o.writer with
  | .writing _ | .ready => true
  | .failed | .finished => false

def isLive (o : Outlet) : Bool := o.sound && o.accepting

/-- A frame is submitted, and what the caller is told. -/
def submit (o : Outlet) (frame : ByteArray) : Except Fault Unit × Outlet :=
  (.ok (),
    if o.accepting then { o with queue := o.queue ++ [frame] } else { o with sound := false })

/-- The writer is done with a frame: it takes the next one, or waits, or is finished. -/
def nextFrame (o : Outlet) : Outlet :=
  match o.queue with
  | frame :: queue => { o with queue, writer := .writing frame }
  | [] => { o with writer := if o.held then .ready else .finished }

/-- The writer puts at most so many bytes on the socket. -/
def write (o : Outlet) (count : Nat) : Outlet :=
  match o.writer with
  | .writing left =>
    let o := { o with
      written := o.written ++ left.extract 0 count
      writer := .writing (left.extract count left.size) }
    if left.size ≤ count then o.nextFrame else o
  | .ready => o.nextFrame
  | .failed | .finished => o

/-- The writer fails after at most so many bytes. -/
def failWrite (o : Outlet) (count : Nat) : Outlet :=
  match o.writer with
  | .writing left =>
    { o with written := o.written ++ left.extract 0 count, writer := .failed, sound := false }
  | _ => o

def step (o : Outlet) : OutletEvent → Outlet
  | .submit frame => if o.held then (o.submit frame).2 else o
  | .write count => o.write count
  | .failWrite count => o.failWrite count
  | .loseReader => { o with sound := false }
  | .hear _ => o
  | .letGo => { o with held := false }

def run (o : Outlet) (es : List OutletEvent) : Outlet := es.foldl step o

/-- The writer puts all that it can on the socket. -/
def flush (o : Outlet) : Outlet :=
  match o.writer with
  | .writing left =>
    { o with
      written := o.queue.foldl (· ++ ·) (o.written ++ left)
      queue := []
      writer := if o.held then .ready else .finished }
  | .ready =>
    { o with
      written := o.queue.foldl (· ++ ·) o.written
      queue := []
      writer := if o.held then .ready else .finished }
  | .failed | .finished => o

end Outlet

end ClusterRelay
