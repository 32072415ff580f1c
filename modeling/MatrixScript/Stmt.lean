import MatrixScript.Expr

/-!
# Statements and programs

The trees of statements, each with the span of its text, and programs as
sequences of statements.  The target of an assignment is an expression; only
variables and references can be assigned to.
-/

namespace MatrixScript

/-- A statement. -/
inductive Stmt where
  | block (span : Span) (body : List Stmt)
  | jump (span : Span) (kind : Jump)
  | print (span : Span) (arguments : List Expr)
  | return (span : Span) (value : Option Expr)
  | assign (span : Span) (target : Expr) (op : AssignOp) (value : Expr)
  | branch (span : Span) (condition : Expr) (thenBranch : Stmt) (elseBranch : Option Stmt)
  | whileLoop (span : Span) (condition : Expr) (body : Stmt)
  | forLoop (span : Span) (counter : Located String) (first last : Expr) (body : Stmt)

/-- The span of a statement, without a closing semicolon. -/
def Stmt.span : Stmt → Span
  | .block span _ | .jump span _ | .print span _ | .return span _ | .assign span _ _ _
  | .branch span _ _ _ | .whileLoop span _ _ | .forLoop span _ _ _ _ => span

/-- A program. -/
structure Program where
  body : List Stmt

end MatrixScript
