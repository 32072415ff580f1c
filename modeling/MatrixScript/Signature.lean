import MatrixScript.Operator
import MatrixScript.Descriptor

/-!
# Signatures of operators

Which types an operator accepts and which type it yields, and which shape the result
has for types that are accepted.
-/

namespace MatrixScript

namespace Signature

/-- The type of a sum, difference or product of numbers. -/
def numeric : Ty → Ty → Option Ty
  | .int, .int => some .int
  | .int, .float | .float, .int | .float, .float => some .float
  | _, _ => none

/-- The type of a result that exists for numbers only. -/
def numbersOnly (result : Ty) (left right : Ty) : Option Ty :=
  if left.isNumeric && right.isNumeric then some result else none

/-- The type of a result that exists for two vectors or two matrices only. -/
def aggregates : Ty → Ty → Option Ty
  | .vector, .vector => some .vector
  | .matrix, .matrix => some .matrix
  | _, _ => none

/-- The type of an array that is combined with a number. -/
def scaled (array number : Ty) : Option Ty :=
  if array.isAggregate && number.isNumeric then some array else none

/-- The type of a sum. -/
def sum (left right : Ty) : Option Ty :=
  if left = .string ∧ right = .string then some .string
  else numeric left right <|> aggregates left right

/-- The type of a difference. -/
def difference (left right : Ty) : Option Ty :=
  numeric left right <|> aggregates left right

/-- The type of a product. -/
def product (left right : Ty) : Option Ty :=
  if left = .vector ∧ right = .vector then some .float
  else numeric left right <|> aggregates left right <|> scaled left right <|> scaled right left

/-- The type of a quotient. -/
def quotient (left right : Ty) : Option Ty :=
  numbersOnly .float left right <|> scaled left right

/-- The type of a plain operation. -/
def plain : Arith → Ty → Ty → Option Ty
  | .add => sum
  | .sub => difference
  | .mul => product
  | .div => quotient

/-- The type of a binary operation. -/
def binary (op : BinaryOp) (left right : Ty) : Option Ty :=
  if op.dotted then aggregates left right else plain op.arith left right

/-- The type of a unary operation. -/
def unary : UnaryOp → Ty → Option Ty
  | .negate, .int => some .int
  | .negate, .float => some .float
  | .transpose, .matrix => some .matrix
  | _, _ => none

/-- The type of a comparison. -/
def comparison (left right : Ty) : Option Ty :=
  if left = .string ∧ right = .string then some .int else numbersOnly .int left right

/-- The shape of the product of two arrays, if they have one. -/
def productShape? (left right : Shape) : Option Shape :=
  match left, right with
  | [length], [other] => if length.compatible other then some [] else none
  | [rows, inner], [height, columns] =>
      if inner.compatible height then some [rows, columns] else none
  | _, _ => if left.compatible right then some (left.join right) else none

/-- The shape of an operation on two arrays, if they fit. -/
def arrayShape? (op : BinaryOp) (left right : Shape) : Option Shape :=
  if op = .plain .mul then productShape? left right
  else if left.compatible right then some (left.join right)
  else none

/-- The shape of a binary operation whose types are accepted, if the shapes fit. -/
def shape? (op : BinaryOp) (left right : Descriptor) : Option Shape :=
  match left.ty.isAggregate, right.ty.isAggregate with
  | true, true => arrayShape? op left.shape right.shape
  | true, false => some left.shape
  | false, true => some right.shape
  | false, false => some []

end Signature

/-- The operators that have a signature; all comparisons share one. -/
inductive Operator where
  | binary (op : BinaryOp)
  | unary (op : UnaryOp)
  | compare
deriving DecidableEq, Repr

/-- The type an operator yields; a unary operator takes its operand on both sides. -/
def Operator.result? (operator : Operator) (left right : Ty) : Option Ty :=
  match operator with
  | .binary op => Signature.binary op left right
  | .unary op => if left = right then Signature.unary op left else none
  | .compare => Signature.comparison left right

end MatrixScript
