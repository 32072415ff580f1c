import MatrixScript.Document
import MatrixScript.Stmt

/-!
# Outlines of programs

The outline of a program is a document that shows the whole tree.  Every node is
tagged with its kind and stands beside its span.
-/

namespace MatrixScript

/-- The outline of a span. -/
def Span.outline (span : Span) : Document :=
  .record [("start", .int span.start), ("end", .int span.stop), ("line", .int span.line)]

/-- The outline of a node with its span. -/
def Span.outlineNode (span : Span) (node : Document) : Document :=
  .record [("node", node), ("span", span.outline)]

/-- The kind of an operation. -/
def Arith.kind : Arith → String
  | .add => "Add"
  | .sub => "Sub"
  | .mul => "Mul"
  | .div => "Div"

/-- The kind of an arithmetic operator. -/
def BinaryOp.kind (op : BinaryOp) : String :=
  (if op.dotted then "Dot" else "") ++ op.arith.kind

/-- The kind of a comparison. -/
def Comparison.kind : Comparison → String
  | .less => "Lt"
  | .greater => "Gt"
  | .lessEqual => "Le"
  | .greaterEqual => "Ge"
  | .equal => "Eq"
  | .notEqual => "Ne"

/-- The kind of a unary operator. -/
def UnaryOp.kind : UnaryOp → String
  | .negate => "Negate"
  | .transpose => "Transpose"

/-- The kind of a matrix constructor. -/
def Builtin.kind : Builtin → String
  | .zeros => "Zeros"
  | .ones => "Ones"
  | .eye => "Eye"

/-- The kind of an assignment. -/
def AssignOp.kind : AssignOp → String
  | .plain => "Assign"
  | .compound arith => arith.kind ++ "Assign"

/-- The kind of a jump. -/
def Jump.kind : Jump → String
  | .«break» => "Break"
  | .«continue» => "Continue"

/-- The outline of a name with its span. -/
def Located.outline (name : Located String) : Document :=
  name.span.outlineNode (.text name.item)

mutual

/-- The outline of an expression. -/
def Expr.outline : Expr → Document
  | .int span value => span.outlineNode (.tagged "IntLit" (.int value.toInt))
  | .float span value => span.outlineNode (.tagged "FloatLit" (.float value))
  | .string span value => span.outlineNode (.tagged "StringLit" (.text value))
  | .var span name => span.outlineNode (.tagged "Var" (.text name))
  | .vector span elements =>
      span.outlineNode (.tagged "Vector" (.list (Expr.outlines elements)))
  | .matrix span rows => span.outlineNode (.tagged "Matrix" (.list (Row.outlines rows)))
  | .reference span name coordinates =>
      span.outlineNode (.tagged "Reference" (.record
        [("name", name.outline), ("coords", .list (Expr.outlines coordinates))]))
  | .call span builtin arguments =>
      span.outlineNode (.tagged "Call" (.record
        [("func", .text builtin.kind), ("args", .list (Expr.outlines arguments))]))
  | .binary span left op right =>
      span.outlineNode (.tagged "Binary" (.record
        [("left", left.outline), ("op", .text op.kind), ("right", right.outline)]))
  | .compare span left op right =>
      span.outlineNode (.tagged "Compare" (.record
        [("left", left.outline), ("op", .text op.kind), ("right", right.outline)]))
  | .unary span op operand =>
      span.outlineNode (.tagged "Unary" (.record
        [("op", .text op.kind), ("expr", operand.outline)]))

/-- The outlines of expressions, in order. -/
def Expr.outlines : List Expr → List Document
  | [] => []
  | head :: tail => head.outline :: Expr.outlines tail

/-- The outlines of matrix rows, in order. -/
def Row.outlines : List Row → List Document
  | [] => []
  | .mk span cells :: tail =>
      span.outlineNode (.list (Expr.outlines cells)) :: Row.outlines tail

end

/-- The outline of an optional expression. -/
def Expr.outline? (value : Option Expr) : Document :=
  match value with
  | none => .null
  | some expr => expr.outline

mutual

/-- The outline of a statement. -/
def Stmt.outline : Stmt → Document
  | .block span body => span.outlineNode (.tagged "Block" (.list (Stmt.outlines body)))
  | .jump span leap => span.outlineNode (.tagged "Flow" (.text leap.kind))
  | .print span arguments =>
      span.outlineNode (.tagged "Print" (.list (Expr.outlines arguments)))
  | .return span value => span.outlineNode (.tagged "Return" (Expr.outline? value))
  | .assign span target op value =>
      span.outlineNode (.tagged "Assign" (.record
        [("target", target.outline), ("op", .text op.kind), ("value", value.outline)]))
  | .branch span condition thenBranch none =>
      span.outlineNode (.tagged "If" (.record
        [("cond", condition.outline), ("then_branch", thenBranch.outline),
          ("else_branch", .null)]))
  | .branch span condition thenBranch (some elseBranch) =>
      span.outlineNode (.tagged "If" (.record
        [("cond", condition.outline), ("then_branch", thenBranch.outline),
          ("else_branch", elseBranch.outline)]))
  | .whileLoop span condition body =>
      span.outlineNode (.tagged "While" (.record
        [("cond", condition.outline), ("body", body.outline)]))
  | .forLoop span counter first last body =>
      span.outlineNode (.tagged "For" (.record
        [("iterator", counter.outline),
          ("range", .record [("start", first.outline), ("end", last.outline)]),
          ("body", body.outline)]))

/-- The outlines of statements, in order. -/
def Stmt.outlines : List Stmt → List Document
  | [] => []
  | head :: tail => head.outline :: Stmt.outlines tail

end

/-- The outline of a program. -/
def Program.outline (program : Program) : Document :=
  .record [("body", .list (Stmt.outlines program.body))]

end MatrixScript
