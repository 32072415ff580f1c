/-!
# Shortest decimals

Every finite positive double is rounded to from a whole interval of real numbers.
The shortest decimal of the double is the decimal with the fewest significant
digits in that interval and, of those, the one nearest to the double.

The search is exact: the interval is held as three natural numbers over one
denominator, and grids of one, two, three and more digits are tried in turn.  On
each grid only the two neighbours of the double can be nearest.
-/

namespace MatrixScript

/-- The decimal `digits * 10 ^ exponent`. -/
structure Decimal where
  digits : Nat
  exponent : Int
deriving DecidableEq, Repr

/-- Which neighbour is taken when a double lies halfway between two decimals. -/
inductive Tie where
  | up
  | even
deriving DecidableEq, Repr

/--
A positive double and the reals that round to it: `value / unit` lies between
`lower / unit` and `upper / unit`, and `closed` says whether the ends belong.
-/
structure RoundingInterval where
  lower : Nat
  value : Nat
  upper : Nat
  unit : Nat
  closed : Bool
deriving DecidableEq, Repr

namespace RoundingInterval

/--
The interval of the double with the given exponent and fraction fields.  Below a
power of two the spacing halves, so the lower end is nearer there.
-/
def ofFields (exponentField fractionField : Nat) : RoundingInterval :=
  let mantissa := if exponentField = 0 then fractionField else Nat.pow 2 52 + fractionField
  let shift := if exponentField = 0 then 1 else exponentField
  -- the double is `4 * mantissa * 2 ^ (shift - 1077)`
  let scale := Nat.pow 2 (shift - 1077)
  let lowerGap := if fractionField = 0 && 1 < exponentField then 1 else 2
  { lower := (4 * mantissa - lowerGap) * scale
    value := 4 * mantissa * scale
    upper := (4 * mantissa + 2) * scale
    unit := Nat.pow 2 (1077 - shift)
    closed := mantissa % 2 == 0 }

/-- The interval of the absolute value of a double. -/
def ofFloat (number : Float) : RoundingInterval :=
  let bits := number.toBits.toNat
  ofFields (bits / Nat.pow 2 52 % Nat.pow 2 11) (bits % Nat.pow 2 52)

/-- The double is at least `10 ^ exponent`. -/
def reaches (interval : RoundingInterval) (exponent : Int) : Bool :=
  interval.unit * Nat.pow 10 exponent.toNat ≤ interval.value * Nat.pow 10 (-exponent).toNat

/--
The exponent of the leading decimal digit.  The binary logarithm gives it up to one;
30103 / 100000 is a little more than the decimal logarithm of two.
-/
def magnitude (interval : RoundingInterval) : Int :=
  let binary : Int := (interval.value.log2 : Int) - interval.unit.log2
  let guess := binary * 30103 / 100000
  if interval.reaches (guess + 1) then guess + 1
  else if interval.reaches guess then guess
  else guess - 1

/-- `near ≤ far`, or `near < far` for an interval without its ends. -/
def within (interval : RoundingInterval) (near far : Nat) : Bool :=
  if interval.closed then near ≤ far else near < far

/--
The nearest point of the grid `… * 10 ^ exponent` that lies in the interval, if
one of the two neighbours of the double does.
-/
def gridPoint? (interval : RoundingInterval) (tie : Tie) (exponent : Int) : Option Nat :=
  let step := interval.unit * Nat.pow 10 exponent.toNat
  let stretch := Nat.pow 10 (-exponent).toNat
  let value := interval.value * stretch
  let below := value / step
  let above := below + 1
  let belowFits := interval.within (interval.lower * stretch) (below * step)
  let aboveFits := interval.within (above * step) (interval.upper * stretch)
  if belowFits && aboveFits then
    let rest := 2 * (value % step)
    if rest < step then some below
    else if step < rest then some above
    else match tie with
      | .up => some above
      | .even => some (if below % 2 = 0 then below else above)
  else if belowFits then some below
  else if aboveFits then some above
  else none

end RoundingInterval

namespace Decimal

/-- Move trailing zeros of the digits into the exponent; `fuel` bounds their number. -/
def dropZeros : Nat → Decimal → Decimal
  | 0, decimal => decimal
  | fuel + 1, decimal =>
      if decimal.digits ≠ 0 ∧ decimal.digits % 10 = 0 then
        dropZeros fuel ⟨decimal.digits / 10, decimal.exponent + 1⟩
      else
        decimal

/-- Try grids of more and more digits, at most `fuel` of them. -/
def search (interval : RoundingInterval) (tie : Tie) : Nat → Int → Decimal
  | 0, exponent => ⟨interval.value / interval.unit, exponent⟩
  | fuel + 1, exponent =>
      match interval.gridPoint? tie exponent with
      | some digits => dropZeros 20 ⟨digits, exponent⟩
      | none => search interval tie fuel (exponent - 1)

/--
The shortest decimal of the absolute value of a finite double.  Seventeen digits
tell any two doubles apart, so the search never fails.
-/
def shortest (tie : Tie) (number : Float) : Decimal :=
  let interval := RoundingInterval.ofFloat number
  if interval.value = 0 then ⟨0, 0⟩
  else search interval tie 18 interval.magnitude

end Decimal

end MatrixScript
