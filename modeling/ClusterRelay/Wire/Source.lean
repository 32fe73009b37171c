import ClusterRelay.Wire.Framer

/-!
# Frames on demand

A framer is handed chunks as they come. A reader that asks for one frame at a time waits instead
until as many chunks have come as the frame needs, and takes no byte that belongs to the next one.
It asks for the length first and then for the body; a body that would be too long it leaves where it
is. At the end of a stream it gets the same answer however often it asks.
-/

namespace ClusterRelay.Wire

/-- The first `n` bytes of chunks that arrive one after another, and what is left of the chunks. If
there are fewer bytes than that, there are none, and nothing is left. -/
def takeOff (n : Nat) : List ByteArray → Option ByteArray × List ByteArray
  | [] => (if n = 0 then some ByteArray.empty else none, [])
  | chunk :: chunks =>
    if n ≤ chunk.size then (some (chunk.extract 0 n), chunk.extract n chunk.size :: chunks)
    else
      let (more, chunks) := takeOff (n - chunk.size) chunks
      (more.map (chunk ++ ·), chunks)

/-- A stream that is read on demand: the chunks that are still to come, and how it ends. -/
structure Source where
  chunks : List ByteArray
  ending : StreamEnd

/-- What comes of asking for a frame: its body, or nothing because the stream is over, or a
fault. -/
abbrev Reading := Except Fault (Option ByteArray)

namespace Source

def read (s : Source) (n : Nat) : Option ByteArray × Source :=
  let (bytes, chunks) := takeOff n s.chunks
  (bytes, { s with chunks })

/-- Asks for the next frame. -/
def next (s : Source) : Reading × Source :=
  match s.read 4 with
  | (none, s) => (match s.ending with | .finished => .ok none | .failed why => .error (.io why), s)
  | (some length, s) =>
    let size := number length
    if maxBody < size then (.error (.oversize size maxBody), s)
    else
      match s.read size with
      | (some body, s) => (.ok (some body), s)
      | (none, s) =>
        (.error (.io (match s.ending with | .finished => "early eof" | .failed why => why)), s)

/-- Asks that many times. -/
def readings (s : Source) : Nat → List Reading
  | 0 => []
  | n + 1 =>
    let (reading, s) := s.next
    reading :: s.readings n

end Source

end ClusterRelay.Wire
