import ClusterRelay.Delay
import ClusterRelay.Fault

/-!
# Pacing

How patiently a link asks for a connection. A visit to one target polls it a number of times, with
a delay after each poll that failed to bring a connection, and after a visit in vain comes one more
delay, before the next target's turn.

A `Schedule` says this as plain data, in one of two ways: all delays equal, or delays that double
from poll to poll up to a cap. A `Pacing` is what the link consults; it may as well break down.
-/

namespace ClusterRelay

/-- The two ways in which delays develop. -/
inductive Backoff where
  | fixed
  | exponential
deriving DecidableEq, Repr, Inhabited

/-- The number of polls in a visit, and the delays. -/
inductive Schedule where
  /-- All delays are equal. -/
  | fixed (attempts : Nat) (delay : Delay)
  /-- The delay after a poll doubles from poll to poll, up to a cap. -/
  | exponential (attempts : Nat) (base cap : Delay)
deriving DecidableEq, Repr

namespace Schedule

/-- Ten polls, one second apart. -/
def standard : Schedule := fixed 10 (Delay.parts 1 0)

def attempts : Schedule → Nat
  | fixed n _ => n
  | exponential n _ _ => n

/-- The factor by which the delay has grown after `poll` doublings: a power of two, as long as it
fits thirty-two bits. -/
def growth (poll : Nat) : Nat :=
  if poll < 32 then 1 <<< poll else UInt32.size - 1

/-- The delay after the poll with this number, counted from zero. -/
def pollDelay : Schedule → Nat → Delay
  | fixed _ delay, _ => delay
  | exponential _ base cap, poll => (base.times (growth poll)).shorter cap

/-- The delay after a visit in vain. -/
def rotateDelay : Schedule → Delay
  | fixed _ delay => delay
  | exponential _ base _ => base

/-- The cap of a link's doubling delays, in multiples of its delay. -/
def capFactor : Nat := 30

/-- The schedule that a link's settings ask for. -/
def ofSettings (attempts : UInt32) (delayMillis : UInt64) (backoff : Backoff) : Schedule :=
  let delay := Delay.millis delayMillis.toNat
  match backoff with
  | .fixed => fixed attempts.toNat delay
  | .exponential => exponential attempts.toNat delay (delay.times capFactor)

end Schedule

/-- What a link consults about its polls and delays. Every question is answered or ends in a
crash. -/
structure Pacing where
  /-- The number of polls in a visit. -/
  attempts : Except Crash Nat
  /-- This number, asked for again when a visit in vain is to be recorded. -/
  recorded : Except Crash Nat := attempts
  /-- This number, asked for once more for the text of the record. -/
  reported : Except Crash Nat := attempts
  pollDelay : Nat → Except Crash Delay
  rotateDelay : Except Crash Delay

/-- The pacing that follows a schedule. -/
def Schedule.pacing (s : Schedule) : Pacing where
  attempts := .ok s.attempts
  pollDelay poll := .ok (s.pollDelay poll)
  rotateDelay := .ok s.rotateDelay

end ClusterRelay
