import MatrixScript.Ty
import MatrixScript.Fault
import MatrixScript.Decimal.Layout

/-!
# Values

A value is a number, a text or an array of values.  A vector is an array of other
things than arrays, a matrix is an array of arrays; the sizes of an array are read off
its first elements.
-/

namespace MatrixScript

/-- A value. -/
inductive Value where
  | int (number : Int64)
  | float (number : Float)
  | string (content : String)
  | array (items : List Value)

namespace Value

/-- The value is an array. -/
def isArray : Value → Bool
  | .array _ => true
  | _ => false

/-- The type of a value; an array is a matrix if its first element is an array. -/
def ty : Value → Ty
  | .int _ => .int
  | .float _ => .float
  | .string _ => .string
  | .array (.array _ :: _) => .matrix
  | .array _ => .vector

/-- The value is an array whose first element is an array. -/
def isMatrix (value : Value) : Bool :=
  value.ty == .matrix

/-- The value counts as true: a number other than zero, or something not empty. -/
def isTruthy : Value → Bool
  | .int number => number != 0
  | .float number => number != 0.0
  | .string content => !content.isEmpty
  | .array items => !items.isEmpty

/-- The number in an integer. -/
def toInt? : Value → Option Int64
  | .int number => some number
  | _ => none

/-- The number in an integer or float, as a float. -/
def toFloat? : Value → Option Float
  | .int number => some number.toFloat
  | .float number => some number
  | _ => none

/-- The sizes of an array and of its first elements, from the outside in. -/
def shape : Value → List Nat
  | .array [] => [0]
  | .array (first :: rest) => (rest.length + 1) :: first.shape
  | _ => []

mutual

/-- The value as it is printed. -/
def text : Value → String
  | .int number => toString number.toInt
  | .float number => Layout.printed.text number
  | .string content => content
  | .array [] => "[]"
  | .array (first :: rest) => "[" ++ first.text ++ textRest rest ++ "]"

/-- The elements of an array behind the first. -/
def textRest : List Value → String
  | [] => ""
  | head :: tail => ", " ++ head.text ++ textRest tail

end

/-- The integer in a value, which has to be one. -/
def expectInt (value : Value) : Except Fault Int64 :=
  match value with
  | .int number => .ok number
  | other => .error (.wrongType "int" other.ty.text)

/-- The element of an array at a coordinate. -/
def element (value : Value) (coordinate : Int64) : Except Fault Value :=
  match value with
  | .array items =>
      if coordinate < 0 then .error (.indexOutOfBounds coordinate items.length)
      else
        match items[coordinate.toInt.toNat]? with
        | some item => .ok item
        | none => .error (.indexOutOfBounds coordinate items.length)
  | other => .error (.wrongType "vector or matrix" other.ty.text)

/-- The part of a value that a list of coordinates leads to. -/
def read (value : Value) : List Int64 → Except Fault Value
  | [] => .ok value
  | coordinate :: rest => do
      let item ← value.element coordinate
      item.read rest

/-- Put a member into an array. -/
def put (value : Value) (coordinate : Int64) (member : Value) : Value :=
  match value with
  | .array items => .array (items.set coordinate.toInt.toNat member)
  | other => other

/-- Replace, in place, the part of a value that a list of coordinates leads to. -/
def replace (value new : Value) : List Int64 → Change Value
  | [] => ⟨none, new⟩
  | coordinate :: rest =>
      match value.element coordinate with
      | .error fault => ⟨some fault, value⟩
      | .ok item =>
          let inside := item.replace new rest
          ⟨inside.fault?, value.put coordinate inside.left⟩

/-- The value with the part that a list of coordinates leads to replaced. -/
def write (value new : Value) (coordinates : List Int64) : Except Fault Value :=
  (value.replace new coordinates).outcome

end Value

end MatrixScript
