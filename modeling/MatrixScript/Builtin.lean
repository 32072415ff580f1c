import MatrixScript.Operator
import MatrixScript.Value

/-!
# Matrix constructors

`zeros`, `ones` and `eye` build matrices of integers.  One size gives a square matrix,
two give the numbers of rows and columns.
-/

namespace MatrixScript.Builtin

/-- The wording for a wrong number of arguments. -/
def arityMessage (builtin : Builtin) (count : Nat) : String :=
  s!"{builtin.text} expects 1 or 2 arguments, got {count}"

/-- A number of rows or columns. -/
def dimension (builtin : Builtin) (size : Int64) : Except Fault Nat :=
  if size < 0 then
    .error (.invalidArgument
      s!"{builtin.text}: size must be non-negative, got {size.toInt}")
  else
    .ok size.toInt.toNat

/-- The number at a place. -/
def cell (builtin : Builtin) (row column : Nat) : Int64 :=
  match builtin with
  | .zeros => 0
  | .ones => 1
  | .eye => if row = column then 1 else 0

/-- The matrix with the given numbers of rows and columns. -/
def grid (builtin : Builtin) (rows columns : Nat) : Value :=
  .array ((List.range rows).map fun row =>
    .array ((List.range columns).map fun column => .int (builtin.cell row column)))

/-- The matrix for a list of sizes. -/
def build (builtin : Builtin) (sizes : List Int64) : Except Fault Value :=
  match sizes with
  | [size] => do
      let rows ← builtin.dimension size
      .ok (builtin.grid rows rows)
  | [height, width] => do
      let rows ← builtin.dimension height
      let columns ← builtin.dimension width
      .ok (builtin.grid rows columns)
  | _ => .error (.invalidArgument (builtin.arityMessage sizes.length))

end MatrixScript.Builtin
