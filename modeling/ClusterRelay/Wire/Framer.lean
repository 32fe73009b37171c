import ClusterRelay.Wire.Packet

/-!
# Frames in a stream

A stream arrives in chunks that have nothing to do with its frames. The framer keeps the bytes that
do not make up a frame yet; every chunk that is fed to it yields the bodies of the frames that it
completes. A frame that announces a body longer than `maxBody` is refused as soon as its length is
there, and with it everything that follows.

A stream that ends inside a body is cut short, which is a fault. One that ends inside a length is
taken for complete: the bytes of the length that did arrive are forgotten.
-/

namespace ClusterRelay.Wire

/-- What the bytes at the head of a stream amount to. -/
inductive Cut where
  /-- No complete frame yet. -/
  | short
  /-- A frame whose body would have this many bytes, too many. -/
  | oversize (size : Nat)
  /-- A frame with this body, and the bytes after it. -/
  | frame (body rest : ByteArray)

/-- Looks for a frame at the head of a string of bytes. -/
def cut (bytes : ByteArray) : Cut :=
  if bytes.size < 4 then .short
  else
    let size := number (bytes.extract 0 4)
    if maxBody < size then .oversize size
    else if bytes.size < 4 + size then .short
    else .frame (bytes.extract 4 (4 + size)) (bytes.extract (4 + size) bytes.size)

theorem size_lt_of_cut {bytes body rest : ByteArray} (h : cut bytes = .frame body rest) :
    rest.size < bytes.size := by
  unfold cut at h
  simp only at h
  split at h
  · simp only [reduceCtorEq] at h
  · split at h
    · simp only [reduceCtorEq] at h
    · split at h
      · simp only [reduceCtorEq] at h
      · simp only [Cut.frame.injEq] at h
        rw [← h.2, ByteArray.size_extract]
        omega

/-- What is left of a stream after its complete frames. -/
inductive Remainder where
  /-- The beginning of a frame, or nothing. -/
  | unfinished (bytes : ByteArray)
  /-- A frame whose body would have this many bytes, too many. -/
  | oversize (size : Nat)
deriving DecidableEq

/-- The bodies of the complete frames at the head of a string of bytes, and what is left. -/
def bodies (bytes : ByteArray) : List ByteArray × Remainder :=
  match _h : cut bytes with
  | .short => ([], .unfinished bytes)
  | .oversize size => ([], .oversize size)
  | .frame body rest =>
    let (others, remainder) := bodies rest
    (body :: others, remainder)
termination_by bytes.size
decreasing_by exact size_lt_of_cut _h

/-- How a stream ends. -/
inductive StreamEnd where
  | finished
  | failed (why : String)
deriving DecidableEq

/-- What the reader of a stream makes of its end, given what was left: nothing, or a fault. -/
def Remainder.verdict : Remainder → StreamEnd → Option Fault
  | .oversize size, _ => some (.oversize size maxBody)
  | .unfinished _, .failed why => some (.io why)
  | .unfinished bytes, .finished => if bytes.size < 4 then none else some (.io "early eof")

/-- A reader of frames, between two chunks. -/
structure Framer where
  left : Remainder := .unfinished ByteArray.empty
deriving DecidableEq

namespace Framer

/-- Takes in one chunk and yields the bodies that it completes. -/
def feed (f : Framer) (chunk : ByteArray) : List ByteArray × Framer :=
  match f.left with
  | .oversize _ => ([], f)
  | .unfinished bytes =>
    let (found, left) := bodies (bytes ++ chunk)
    (found, ⟨left⟩)

def feedAll (f : Framer) : List ByteArray → List ByteArray × Framer
  | [] => ([], f)
  | chunk :: chunks =>
    let (found, f) := f.feed chunk
    let (others, f) := f.feedAll chunks
    (found ++ others, f)

end Framer

end ClusterRelay.Wire
