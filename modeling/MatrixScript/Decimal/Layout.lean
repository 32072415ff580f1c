import MatrixScript.Decimal.Shortest

/-!
# Writing doubles

A layout says how the shortest decimal of a double is set out: which magnitudes
are written with a plain decimal point, and how an exponent is marked.

There are two layouts.  `Layout.printed` is the text of a float wherever the
language shows one.  `Layout.listed` is the number in a listing of a program tree.
-/

namespace MatrixScript

/-- How the decimal of a double is set out. -/
structure Layout where
  /-- The least exponent of a leading digit that is written without exponent. -/
  least : Int
  /-- The greatest exponent of a leading digit that is written without exponent. -/
  greatest : Int
  /-- A positive exponent has a plus sign. -/
  plus : Bool
  /-- Which neighbour a double halfway between two decimals takes. -/
  tie : Tie

namespace Layout

/-- Floats as the language prints them. -/
def printed : Layout := ⟨-4, 15, false, .up⟩

/-- Floats in the listing of a program tree. -/
def listed : Layout := ⟨-5, 15, true, .even⟩

/-- A decimal with a plain point, and at least one digit on either side of it. -/
def positional (digits : List Char) (exponent : Int) : String :=
  if 0 ≤ exponent then
    String.ofList (digits ++ List.replicate exponent.toNat '0') ++ ".0"
  else
    let places := (-exponent).toNat
    let padded := List.replicate (places + 1 - digits.length) '0' ++ digits
    String.ofList (padded.take (padded.length - places)) ++ "." ++
      String.ofList (padded.drop (padded.length - places))

/-- A decimal with one digit before the point, and an exponent. -/
def scientific (layout : Layout) (digits : List Char) (magnitude : Int) : String :=
  let mantissa := match digits with
    | [] => "0"
    | [lead] => lead.toString
    | lead :: rest => lead.toString ++ "." ++ String.ofList rest
  let sign := if layout.plus && 0 ≤ magnitude then "+" else ""
  mantissa ++ "e" ++ sign ++ toString magnitude

/-- The text of a positive decimal. -/
def decimalText (layout : Layout) (decimal : Decimal) : String :=
  let digits := Nat.toDigits 10 decimal.digits
  let magnitude := decimal.exponent + digits.length - 1
  if layout.least ≤ magnitude ∧ magnitude ≤ layout.greatest then
    positional digits decimal.exponent
  else
    layout.scientific digits magnitude

/-- The text of a double. -/
def text (layout : Layout) (number : Float) : String :=
  if number.isNaN then "NaN"
  else
    let sign := if number.toBits.toNat < Nat.pow 2 63 then "" else "-"
    if number.isInf then sign ++ "inf"
    else sign ++ layout.decimalText (Decimal.shortest layout.tie number)

end Layout

end MatrixScript
