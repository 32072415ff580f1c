import MatrixScript.Decimal.Shortest

/-!
# Reading decimals

A decimal is read as the nearest double.  Decimals beyond the range of doubles
become infinity or zero before any large power of ten is formed.
-/

namespace MatrixScript

/-- The number that a run of decimal digits denotes. -/
def Decimal.natural (digits : List Char) : Nat :=
  digits.foldl (fun number digit => 10 * number + (digit.toNat - '0'.toNat)) 0

/-- The double nearest to a decimal, with ties to the even mantissa. -/
def Decimal.toFloat (decimal : Decimal) : Float :=
  let magnitude := decimal.exponent + (Nat.toDigits 10 decimal.digits).length
  if decimal.digits = 0 ∨ magnitude < -400 then
    0.0
  else if 400 < magnitude then
    1.0 / 0.0
  else
    Float.ofScientific decimal.digits (decimal.exponent < 0) decimal.exponent.natAbs

end MatrixScript
