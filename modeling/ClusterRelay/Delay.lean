import ClusterRelay.Text.Numeral

/-!
# Delays

A delay is a number of nanoseconds. The longest one, `Delay.max`, is what sixty-four bits of
seconds and a fraction just below a second add up to; arithmetic that would exceed it stops there.

Clocks count whole milliseconds, so a delay that is none is waited out to the end of its last one.
-/

namespace ClusterRelay

structure Delay where
  nanos : Nat
deriving DecidableEq, Repr, Inhabited

namespace Delay

def perSecond : Nat := 1000000000

def perMilli : Nat := 1000000

def max : Delay := ⟨(UInt64.size - 1) * perSecond + (perSecond - 1)⟩

def millis (n : Nat) : Delay := ⟨n * perMilli⟩

/-- A delay of seconds and a fraction in nanoseconds. -/
def parts (seconds nanos : Nat) : Delay := ⟨seconds * perSecond + nanos⟩

/-- A multiple of a delay, or the longest delay if the multiple is longer. -/
def times (d : Delay) (factor : Nat) : Delay := ⟨min (d.nanos * factor) max.nanos⟩

def shorter (a b : Delay) : Delay := ⟨min a.nanos b.nanos⟩

/-- The seconds, a point, and nine digits of the fraction. -/
def written (d : Delay) : String :=
  Text.decimal (d.nanos / perSecond) ++ "." ++ Text.decimalPadded 9 (d.nanos % perSecond)

/-- The seconds that a clock cannot count beyond: those of a signed word of sixty-four bits, less the
one at least that it has counted already. -/
def clockRange : Nat := UInt64.size / 2 - 1

/-- How far a clock can look ahead when it is asked for more than its own range: thirty years. -/
def horizonMillis : Nat := 30 * 365 * 86400 * 1000

/-- The milliseconds for which a clock waits. -/
def wait (d : Delay) : Nat :=
  if clockRange ≤ d.nanos / perSecond then horizonMillis
  else (d.nanos + (perMilli - 1)) / perMilli

end Delay

end ClusterRelay
