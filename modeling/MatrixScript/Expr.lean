import MatrixScript.Span
import MatrixScript.Operator

/-!
# Expressions

The trees of expressions.  Every node carries the span of the text it was read
from; parentheses leave no node and only widen the span of what they enclose.
-/

namespace MatrixScript

mutual

/-- An expression. -/
inductive Expr where
  | int (span : Span) (value : Int64)
  | float (span : Span) (value : Float)
  | string (span : Span) (value : String)
  | var (span : Span) (name : String)
  | vector (span : Span) (elements : List Expr)
  | matrix (span : Span) (rows : List Row)
  /-- An element or a row of a named array, by the coordinates given. -/
  | reference (span : Span) (name : Located String) (coordinates : List Expr)
  | call (span : Span) (builtin : Builtin) (arguments : List Expr)
  | binary (span : Span) (left : Expr) (op : BinaryOp) (right : Expr)
  | compare (span : Span) (left : Expr) (op : Comparison) (right : Expr)
  | unary (span : Span) (op : UnaryOp) (operand : Expr)

/-- A row of a matrix literal. -/
inductive Row where
  | mk (span : Span) (cells : List Expr)

end

namespace Row

/-- The span of a row with its brackets. -/
def span : Row → Span
  | .mk span _ => span

/-- The expressions in a row. -/
def cells : Row → List Expr
  | .mk _ cells => cells

end Row

namespace Expr

/-- The span of an expression. -/
def span : Expr → Span
  | .int span _ | .float span _ | .string span _ | .var span _ | .vector span _
  | .matrix span _ | .reference span _ _ | .call span _ _ | .binary span _ _ _
  | .compare span _ _ _ | .unary span _ _ => span

/-- The same expression with another span. -/
def withSpan (span : Span) : Expr → Expr
  | .int _ value => .int span value
  | .float _ value => .float span value
  | .string _ value => .string span value
  | .var _ name => .var span name
  | .vector _ elements => .vector span elements
  | .matrix _ rows => .matrix span rows
  | .reference _ name coordinates => .reference span name coordinates
  | .call _ builtin arguments => .call span builtin arguments
  | .binary _ left op right => .binary span left op right
  | .compare _ left op right => .compare span left op right
  | .unary _ op operand => .unary span op operand

/-- The value of an integer literal. -/
def literal? : Expr → Option Int64
  | .int _ value => some value
  | _ => none

@[simp]
theorem span_withSpan (span : Span) (expr : Expr) : (expr.withSpan span).span = span := by
  cases expr <;> rfl

end Expr

end MatrixScript
