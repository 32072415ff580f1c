import MatrixScript.Span
import MatrixScript.Text.Blank
import MatrixScript.Text.Combining
import MatrixScript.Text.Unprintable
import MatrixScript.Text.Quoted
import MatrixScript.Decimal.Shortest
import MatrixScript.Decimal.Layout
import MatrixScript.Decimal.Reading
import MatrixScript.Document
import MatrixScript.Token
import MatrixScript.Token.LineIndex
import MatrixScript.Token.Scanner
import MatrixScript.TokenStream
import MatrixScript.SourceError
import MatrixScript.Operator
import MatrixScript.Expr
import MatrixScript.Expr.Parser
import MatrixScript.Stmt
import MatrixScript.Stmt.Parser
import MatrixScript.Stmt.Outline
import MatrixScript.Ty
import MatrixScript.Fault
import MatrixScript.Value
import MatrixScript.Arithmetic
import MatrixScript.Builtin
import MatrixScript.Bindings
import MatrixScript.Memory
import MatrixScript.Transcript
import MatrixScript.Machine
import MatrixScript.Expr.Evaluation
import MatrixScript.Stmt.Execution
import MatrixScript.EditDistance
import MatrixScript.Shape
import MatrixScript.Descriptor
import MatrixScript.Signature
import MatrixScript.Scope
import MatrixScript.Scope.Tree
import MatrixScript.Diagnostic
import MatrixScript.Expr.Typing
import MatrixScript.Checker
import MatrixScript.Session
import MatrixScript.Prompt
import MatrixScript.CommandLine
import MatrixScript.Main
import MatrixScript.Proofs.Outcome
import MatrixScript.Proofs.Expr.Nodes
import MatrixScript.Proofs.Value.Parts
import MatrixScript.Proofs.Value.Arrays
import MatrixScript.Proofs.Value.Products
import MatrixScript.Proofs.Value.DotProducts
import MatrixScript.Proofs.Value.Nesting
import MatrixScript.Proofs.Value.Tables
import MatrixScript.Proofs.Value.IntegerMatrices
import MatrixScript.Proofs.Signature
import MatrixScript.Proofs.Expr.Acceptance
import MatrixScript.Proofs.Precision
import MatrixScript.Proofs.Expr.Soundness
import MatrixScript.Proofs.Scope
import MatrixScript.Proofs.Memory
import MatrixScript.Proofs.Places
import MatrixScript.Proofs.Stmt.Nodes
import MatrixScript.Proofs.Stmt.Assignments
import MatrixScript.Proofs.Stmt.Lines
import MatrixScript.Proofs.Stmt.Execution
import MatrixScript.Proofs.Stmt.Checking
import MatrixScript.Proofs.Value.Faults
import MatrixScript.Proofs.Stmt.Binding
import MatrixScript.Proofs.Reader
import MatrixScript.Proofs.Expr.Grammar
import MatrixScript.Proofs.Expr.ParserSoundness
import MatrixScript.Proofs.Expr.ParserCompleteness
import MatrixScript.Proofs.Stmt.Grammar
import MatrixScript.Proofs.Stmt.ParserSoundness
import MatrixScript.Proofs.Stmt.ParserCompleteness
import MatrixScript.Proofs.Stmt.Frames
import MatrixScript.Proofs.Checker
import MatrixScript.Proofs.Stmt.Sites
import MatrixScript.Proofs.Stmt.Coordinates
import MatrixScript.Proofs.Mirrors
import MatrixScript.Proofs.Stmt.StraightLine
import MatrixScript.Proofs.Expr.Forms
import MatrixScript.Proofs.Stmt.Visits
import MatrixScript.Proofs.Stmt.Rounds
import MatrixScript.Proofs.Stmt.Rectangles
import MatrixScript.Proofs.Stmt.Jumps
import MatrixScript.Proofs.Expr.Layout
import MatrixScript.Proofs.Stmt.Layout
import MatrixScript.Proofs.Stmt.Declaring
import MatrixScript.Proofs.Session
import MatrixScript.Proofs.Expr.Complaints
import MatrixScript.Proofs.Stmt.Termination
import MatrixScript.Proofs.Token.LineIndex
import MatrixScript.Proofs.Token.Scanner
import MatrixScript.Proofs.Token.Spelling
import MatrixScript.Proofs.Token.Positions
import MatrixScript.Proofs.Value.Printing
import MatrixScript.Proofs.Node
import MatrixScript.Proofs.Expr.Spans
import MatrixScript.Proofs.Stmt.Spans
import MatrixScript.Proofs.Rank
import MatrixScript.Proofs.Expr.Addresses
import MatrixScript.Proofs.Expr.Independence
import MatrixScript.Proofs.Stmt.Expansion
import MatrixScript.Proofs.Token.Tiling
import MatrixScript.Proofs.Token.Patterns
import MatrixScript.Proofs.Token.Literals
import MatrixScript.Proofs.Token.LongestMatch
import MatrixScript.Proofs.Token.Munch
import MatrixScript.Proofs.Token.Strings
import MatrixScript.Proofs.Token.Display
import MatrixScript.Proofs.Token.Errors
import MatrixScript.Proofs.Rejection
import MatrixScript.Proofs.Expr.Rejection
import MatrixScript.Proofs.Stmt.Rejection
import MatrixScript.Proofs.EditDistance
import MatrixScript.Proofs.Suggestion
import MatrixScript.Proofs.Memory.History
import MatrixScript.Proofs.Scope.Tree
import MatrixScript.Proofs.Stmt.Failures
