import MatrixScript.Operator
import MatrixScript.Value

/-!
# Arithmetic on values

Integers are signed words of 64 bits and wrap around.  A float in either operand makes
the result a float, and so does division, which fails on a zero divisor.

On arrays, dotted operators and plain sums work element by element.  The product
of two vectors is their dot product, that of two matrices the matrix product, and
a number multiplies or divides every element.
-/

namespace MatrixScript.Value

/-- The quotient of two floats. -/
def divide (dividend divisor : Float) : Except Fault Value :=
  if divisor == 0.0 then .error .divisionByZero else .ok (.float (dividend / divisor))

/-- An operation on two integers. -/
def intArith (op : Arith) (left right : Int64) : Except Fault Value :=
  match op with
  | .add => .ok (.int (left + right))
  | .sub => .ok (.int (left - right))
  | .mul => .ok (.int (left * right))
  | .div => divide left.toFloat right.toFloat

/-- An operation on two floats. -/
def floatArith (op : Arith) (left right : Float) : Except Fault Value :=
  match op with
  | .add => .ok (.float (left + right))
  | .sub => .ok (.float (left - right))
  | .mul => .ok (.float (left * right))
  | .div => divide left right

/-- An operation on two numbers. -/
def scalar (op : Arith) (left right : Value) : Except Fault Value :=
  match left, right with
  | .int first, .int second => intArith op first second
  | _, _ =>
      match left.toFloat?, right.toFloat? with
      | some first, some second => floatArith op first second
      | _, _ => .error (.unsupported op.describe left.ty.text right.ty.text)

/-- Two arrays do not have the same sizes. -/
def mismatch {α : Type} (left right : Value) : Except Fault α :=
  .error (.shapeMismatch left.shape right.shape)

mutual

/-- An operation on the numbers at the same places of two arrays. -/
def elementwise (op : Arith) (left right : Value) : Except Fault Value :=
  match left with
  | .array lefts =>
      match right with
      | .array rights =>
          if lefts.length = rights.length then do
            let items ← elementwiseAll op lefts rights
            .ok (.array items)
          else mismatch (.array lefts) (.array rights)
      | other => mismatch (.array lefts) other
  | other =>
      if right.isArray then mismatch other right else scalar op other right

/-- An operation on two lists, place by place. -/
def elementwiseAll (op : Arith) (lefts rights : List Value) : Except Fault (List Value) :=
  match lefts, rights with
  | left :: lefts, right :: rights => do
      let head ← elementwise op left right
      let tail ← elementwiseAll op lefts rights
      .ok (head :: tail)
  | _, _ => .ok []

end

mutual

/-- Replace every value in an array that is no array itself. -/
def mapLeaves (change : Value → Except Fault Value) : Value → Except Fault Value
  | .array items => do
      let changed ← mapLeavesAll change items
      .ok (.array changed)
  | leaf => change leaf

/-- Replace the leaves of every value of a list. -/
def mapLeavesAll (change : Value → Except Fault Value) : List Value → Except Fault (List Value)
  | [] => .ok []
  | head :: tail => do
      let first ← mapLeaves change head
      let rest ← mapLeavesAll change tail
      .ok (first :: rest)

end

/-- Add the products of the numbers at the same places to a sum. -/
def addProducts (sum : Value) : List Value → List Value → Except Fault Value
  | left :: lefts, right :: rights => do
      let product ← scalar .mul left right
      let next ← scalar .add sum product
      addProducts next lefts rights
  | _, _ => .ok sum

/-- The sum of the products of two vectors; integers give an integer. -/
def innerProduct (left right : Value) : Except Fault Value :=
  match left, right with
  | .array lefts, .array rights =>
      if lefts.length = rights.length then addProducts (.int 0) lefts rights
      else mismatch left right
  | _, _ => .error (.unsupported "multiply" left.ty.text right.ty.text)

/-- The dot product of two vectors, which is a float. -/
def dotProduct (left right : Value) : Except Fault Value := do
  let sum ← innerProduct left right
  .ok (.float (sum.toFloat?.getD 0.0))

/-- The elements of a row of a matrix. -/
def rowCells (row : Value) : Except Fault (List Value) :=
  match row with
  | .array cells => .ok cells
  | other => .error (.wrongType "matrix" other.ty.text)

/-- The columns of a matrix that is given by its rows. -/
def columns (width : Nat) (rows : List (List Value)) : List (List Value) :=
  (List.range width).map fun place => rows.filterMap fun row => row[place]?

/-- A matrix with rows and columns exchanged. -/
def transpose (value : Value) : Except Fault Value := do
  let items ← rowCells value
  let rows ← items.mapM rowCells
  let width := (rows.head?.map List.length).getD 0
  if rows.all fun row => row.length == width then
    .ok (.array ((columns width rows).map .array))
  else
    .error (.shapeMismatch value.shape [rows.length, width])

/-- Matrices of these sizes have a product. -/
def conformable : List Nat → List Nat → Bool
  | [_, inner], [0] => inner == 0
  | [_, inner], [height, _] => inner == height
  | _, _ => false

/-- The matrix product. -/
def matrixProduct (left right : Value) : Except Fault Value := do
  if left.shape = [0] then
    .ok (.array [])
  else if conformable left.shape right.shape then
    let transposed ← transpose right
    let factors ← rowCells transposed
    let rows ← rowCells left
    let products ← rows.mapM fun row => do
      let cells ← factors.mapM (innerProduct row)
      .ok (.array cells)
    .ok (.array products)
  else
    mismatch left right

/-- The value can be a factor of a matrix product: a matrix without rows is empty. -/
def isMatrixLike (value : Value) : Bool :=
  value.isMatrix || value.shape == [0]

/-- The product of two arrays. -/
def arrayProduct (left right : Value) : Except Fault Value :=
  if left.isMatrixLike && right.isMatrixLike then matrixProduct left right
  else if !left.isMatrix && !right.isMatrix then dotProduct left right
  else .error (.unsupported "multiply" left.ty.text right.ty.text)

/-- A plain operator on two values. -/
def plainArith (op : Arith) (left right : Value) : Except Fault Value :=
  match op, left, right with
  | .add, .string first, .string second => .ok (.string (first ++ second))
  | .add, .array _, .array _ => elementwise .add left right
  | .sub, .array _, .array _ => elementwise .sub left right
  | .mul, .array _, .array _ => arrayProduct left right
  | .mul, .array _, _ => mapLeaves (fun leaf => scalar .mul leaf right) left
  | .mul, _, .array _ => mapLeaves (fun leaf => scalar .mul left leaf) right
  | .div, .array _, .array _ => scalar .div left right
  | .div, .array _, _ => mapLeaves (fun leaf => scalar .div leaf right) left
  | _, _, _ => scalar op left right

/-- A binary operator on two values. -/
def binary (op : BinaryOp) (left right : Value) : Except Fault Value :=
  if op.dotted then elementwise op.arith left right else plainArith op.arith left right

/-- A number with the other sign. -/
def negate (value : Value) : Except Fault Value :=
  match value with
  | .int number => .ok (.int (-number))
  | .float number => .ok (.float (-number))
  | other => .error (.wrongType "int or float" other.ty.text)

/-- A unary operator on a value. -/
def unary (op : UnaryOp) (value : Value) : Except Fault Value :=
  match op with
  | .negate => negate value
  | .transpose => transpose value

end MatrixScript.Value

namespace MatrixScript

/-- The order of two floats; a NaN has none. -/
def compareFloats (left right : Float) : Option Ordering :=
  if left < right then some .lt
  else if left == right then some .eq
  else if right < left then some .gt
  else none

/-- The order of two texts, by their code points. -/
def compareTexts (left right : String) : Ordering :=
  if left < right then .lt else if left = right then .eq else .gt

/-- The comparison holds of two things in a given order. -/
def Comparison.holds : Comparison → Ordering → Bool
  | .less, order => order == .lt
  | .greater, order => order == .gt
  | .lessEqual, order => order != .gt
  | .greaterEqual, order => order != .lt
  | .equal, order => order == .eq
  | .notEqual, order => order != .eq

namespace Value

/-- The order of two numbers or two texts, if they have one. -/
def order (left right : Value) : Except Fault (Option Ordering) :=
  match left, right with
  | .string first, .string second => .ok (some (compareTexts first second))
  | _, _ =>
      match left.toFloat?, right.toFloat? with
      | some first, some second => .ok (compareFloats first second)
      | _, _ => .error (.unsupported "compare" left.ty.text right.ty.text)

/-- A comparison of two values: one if it holds and zero if not. -/
def compare (op : Comparison) (left right : Value) : Except Fault Value := do
  let found ← order left right
  .ok (.int (if found.any op.holds then 1 else 0))

end Value

end MatrixScript
