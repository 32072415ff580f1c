/-!
# Types

The types of the language.  The type `undefined` belongs to no value: the checker
gives it to an expression about which it has already complained.
-/

namespace MatrixScript

/-- A type. -/
inductive Ty where
  | int
  | float
  | string
  | vector
  | matrix
  | undefined
deriving DecidableEq, Repr

namespace Ty

/-- The name of a type. -/
def text : Ty → String
  | .int => "int"
  | .float => "float"
  | .string => "string"
  | .vector => "vector"
  | .matrix => "matrix"
  | .undefined => "undefined"

/-- Every type. -/
def all : List Ty := [.int, .float, .string, .vector, .matrix, .undefined]

/-- The type has numbers as values. -/
def isNumeric : Ty → Bool
  | .int | .float => true
  | _ => false

/-- The type has arrays as values. -/
def isAggregate : Ty → Bool
  | .vector | .matrix => true
  | _ => false

end Ty

end MatrixScript
