/-!
# The range of numbers

A JSON number may have any number of digits; one that exceeds the greatest double is refused where
its value is asked for. Its value is found in two roundings. The digits are read from the left
while the number that they make up fits sixty-four bits; those that come later are dropped, and only
their place is counted. That number and the power of ten which it is to be multiplied by are each
rounded to a double, and so is their product. The number is out of range if the product is.
-/

namespace ClusterRelay.Json

/-- The greatest number that the digits are read up to. -/
def maxSignificand : Nat := UInt64.size - 1

/-- A number while its digits are read: what they make up so far, the power of ten that it is to be
multiplied by, and whether digits are dropped by now. -/
structure Magnitude where
  significand : Nat := 0
  exponent : Int := 0
  full : Bool := false
deriving DecidableEq, Repr

namespace Magnitude

/-- One more digit before the point. -/
def wholeDigit (m : Magnitude) (digit : Nat) : Magnitude :=
  if m.full || m.significand * 10 + digit > maxSignificand then
    { m with exponent := m.exponent + 1, full := true }
  else { m with significand := m.significand * 10 + digit }

/-- One more digit behind the point. -/
def fractionDigit (m : Magnitude) (digit : Nat) : Magnitude :=
  if m.full || m.significand * 10 + digit > maxSignificand then { m with full := true }
  else { m with significand := m.significand * 10 + digit, exponent := m.exponent - 1 }

/-- The magnitude of a number written by these digits and this exponent. The point makes room:
the first digits behind it are tried again. -/
def ofDigits (whole fraction : List Nat) (exponent : Int) : Magnitude :=
  let m := whole.foldl wholeDigit {}
  let m := fraction.foldl fractionDigit { m with full := false }
  { m with exponent := m.exponent + exponent }

end Magnitude

/-- A number rounded to fifty-three significant bits, a tie to the even neighbour. -/
def roundToDouble (n : Nat) : Nat :=
  let bits := n.log2 + 1
  if bits ≤ 53 then n
  else
    let unit := 1 <<< (bits - 53)
    let low := n % unit
    let down := n - low
    if 2 * low < unit then down
    else if unit < 2 * low then down + unit
    else if down / unit % 2 = 0 then down else down + unit

/-- From here on a product rounds to no double: halfway between the greatest double and the next
power of two. -/
def overflowBound : Nat := 1 <<< 1024 - 1 <<< 970

/-- A magnitude beyond the greatest double. A negative power of ten brings none there. -/
def Magnitude.overflows (m : Magnitude) : Bool :=
  match m.exponent with
  | .negSucc _ => false
  | .ofNat e =>
    if m.significand = 0 then false
    else if 308 < e then true
    else overflowBound ≤ roundToDouble m.significand * roundToDouble (Nat.pow 10 e)

end ClusterRelay.Json
