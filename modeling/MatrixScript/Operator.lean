/-!
# Operators

The arithmetic operators come plain and dotted: a dotted operator works element
by element.  Beside them there are comparisons, two unary operators, assignments
and the built-in matrix constructors.
-/

namespace MatrixScript

/-- The four arithmetic operations. -/
inductive Arith where
  | add
  | sub
  | mul
  | div
deriving DecidableEq, Repr

namespace Arith

/-- The symbol of an operation. -/
def text : Arith → String
  | .add => "+"
  | .sub => "-"
  | .mul => "*"
  | .div => "/"

/-- The name of an operation in messages. -/
def describe : Arith → String
  | .add => "ADD"
  | .sub => "SUB"
  | .mul => "MUL"
  | .div => "DIV"

end Arith

/-- A binary arithmetic operator: an operation, and whether it is dotted. -/
structure BinaryOp where
  dotted : Bool
  arith : Arith
deriving DecidableEq, Repr

namespace BinaryOp

/-- The plain operator of an operation. -/
def plain (arith : Arith) : BinaryOp := ⟨false, arith⟩

/-- The dotted operator of an operation. -/
def elementwise (arith : Arith) : BinaryOp := ⟨true, arith⟩

/-- The symbol of an operator. -/
def text (op : BinaryOp) : String :=
  (if op.dotted then "." else "") ++ op.arith.text

/-- The name of an operator in messages. -/
def describe (op : BinaryOp) : String :=
  (if op.dotted then "DOT-" else "") ++ op.arith.describe

end BinaryOp

/-- The comparison operators. -/
inductive Comparison where
  | less
  | greater
  | lessEqual
  | greaterEqual
  | equal
  | notEqual
deriving DecidableEq, Repr

/-- The symbol of a comparison. -/
def Comparison.text : Comparison → String
  | .less => "<"
  | .greater => ">"
  | .lessEqual => "<="
  | .greaterEqual => ">="
  | .equal => "=="
  | .notEqual => "!="

/-- The unary operators: a minus sign in front, a quote behind. -/
inductive UnaryOp where
  | negate
  | transpose
deriving DecidableEq, Repr

/-- The name of a unary operator in messages. -/
def UnaryOp.describe : UnaryOp → String
  | .negate => "NEGATE"
  | .transpose => "TRANSPOSE"

/-- The matrix constructors. -/
inductive Builtin where
  | zeros
  | ones
  | eye
deriving DecidableEq, Repr

/-- The spelling of a matrix constructor. -/
def Builtin.text : Builtin → String
  | .zeros => "zeros"
  | .ones => "ones"
  | .eye => "eye"

/-- An assignment replaces the value of its target, or first combines it with another. -/
inductive AssignOp where
  | plain
  | compound (arith : Arith)
deriving DecidableEq, Repr

namespace AssignOp

/-- The operation a compound assignment applies. -/
def arith? : AssignOp → Option Arith
  | .plain => none
  | .compound arith => some arith

/-- The name of an assignment in messages. -/
def describe : AssignOp → String
  | .plain => "ASSIGN"
  | .compound arith => arith.describe ++ "-ASSIGN"

end AssignOp

/-- The statements that leave a loop or begin its next round. -/
inductive Jump where
  | «break»
  | «continue»
deriving DecidableEq, Repr

/-- The name of a jump in messages. -/
def Jump.describe : Jump → String
  | .«break» => "BREAK"
  | .«continue» => "CONTINUE"

end MatrixScript
