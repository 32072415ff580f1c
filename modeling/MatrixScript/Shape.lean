/-!
# Shapes

A shape lists the sizes of an array as far as they are known before a program runs.
A dimension of unknown size is compatible with every size.
-/

namespace MatrixScript

/-- A size that may be unknown. -/
inductive Dim where
  | known (size : Nat)
  | unbounded
deriving DecidableEq, Repr

namespace Dim

/-- The two can be the same size. -/
def compatible : Dim → Dim → Bool
  | .known first, .known second => first == second
  | _, _ => true

/-- The index is certainly outside the dimension. -/
def excludes (dim : Dim) (index : Int64) : Bool :=
  match dim with
  | .known size => index.toInt < 0 || (size : Int) ≤ index.toInt
  | .unbounded => false

/-- The first size if it is known, and the second if not. -/
def orElse : Dim → Dim → Dim
  | .unbounded, second => second
  | first, _ => first

/-- The dimension in messages. -/
def text : Dim → String
  | .known size => toString size
  | .unbounded => "inf"

end Dim

/-- The sizes of an array from the outside in; none for a scalar. -/
abbrev Shape := List Dim

namespace Shape

/-- The two shapes have the same rank and dimensions that can be equal. -/
def compatible (first second : Shape) : Bool :=
  first.length == second.length && (first.zip second).all fun pair => pair.1.compatible pair.2

/-- The shape in messages. -/
def text (shape : Shape) : String :=
  "[" ++ ", ".intercalate (shape.map Dim.text) ++ "]"

/-- Two compatible shapes as one, with every size that either knows. -/
def join (first second : Shape) : Shape :=
  List.zipWith Dim.orElse first second

end Shape

end MatrixScript
