import MatrixScript.Expr
import MatrixScript.Arithmetic
import MatrixScript.Builtin
import MatrixScript.Memory

/-!
# Evaluation of expressions

An expression has a value in a memory, or a fault.  Operands are evaluated from left to
right and the first fault is the result.
-/

namespace MatrixScript

mutual

/-- The value of an expression. -/
def Expr.eval (memory : Memory) : Expr → Except Fault Value
  | .int _ value => .ok (.int value)
  | .float _ value => .ok (.float value)
  | .string _ value => .ok (.string value)
  | .var _ name => memory.get (.var name)
  | .vector _ elements => do
      let items ← Expr.evalAll memory elements
      .ok (.array items)
  | .matrix _ rows => do
      let items ← Row.evalAll memory rows
      .ok (.array items)
  | .reference _ name coordinates => do
      let places ← Expr.evalInts memory coordinates
      memory.get (.slot name.item places)
  | .call _ builtin arguments => do
      let sizes ← Expr.evalInts memory arguments
      builtin.build sizes
  | .binary _ left op right => do
      let first ← left.eval memory
      let second ← right.eval memory
      Value.binary op first second
  | .compare _ left op right => do
      let first ← left.eval memory
      let second ← right.eval memory
      Value.compare op first second
  | .unary _ op operand => do
      let value ← operand.eval memory
      Value.unary op value

/-- The values of expressions, in order. -/
def Expr.evalAll (memory : Memory) : List Expr → Except Fault (List Value)
  | [] => .ok []
  | head :: tail => do
      let first ← head.eval memory
      let rest ← Expr.evalAll memory tail
      .ok (first :: rest)

/-- The values of expressions that have to be integers, in order. -/
def Expr.evalInts (memory : Memory) : List Expr → Except Fault (List Int64)
  | [] => .ok []
  | head :: tail => do
      let value ← head.eval memory
      let first ← value.expectInt
      let rest ← Expr.evalInts memory tail
      .ok (first :: rest)

/-- The arrays that the rows of a matrix literal denote, in order. -/
def Row.evalAll (memory : Memory) : List Row → Except Fault (List Value)
  | [] => .ok []
  | .mk _ cells :: tail => do
      let items ← Expr.evalAll memory cells
      let rest ← Row.evalAll memory tail
      .ok (.array items :: rest)

end

namespace Expr

/-- The value of an expression that has to be an integer. -/
def evalInt (memory : Memory) (expr : Expr) : Except Fault Int64 := do
  let value ← expr.eval memory
  value.expectInt

/-- What an expression is called in the fault of assigning to it. -/
def category : Expr → String
  | .int _ _ | .float _ _ | .string _ _ => "literal"
  | .var _ _ => "variable"
  | .vector _ _ | .matrix _ _ => "array literal"
  | .reference _ _ _ => "reference"
  | .call _ _ _ => "call"
  | .binary _ _ _ _ | .compare _ _ _ _ | .unary _ _ _ => "expression"

/-- The place that the target of an assignment denotes. -/
def place (memory : Memory) (target : Expr) : Except Fault Place :=
  match target with
  | .var _ name => .ok (.var name)
  | .reference _ name coordinates => do
      let places ← evalInts memory coordinates
      .ok (.slot name.item places)
  | other => .error (.wrongType "variable or reference" other.category)

end Expr

end MatrixScript
