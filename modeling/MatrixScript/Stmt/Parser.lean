import MatrixScript.Token.Scanner
import MatrixScript.Expr.Parser
import MatrixScript.Stmt

/-!
# Reading statements and programs

Blocks, branches and loops nest; all other statements end with a semicolon.

`Program.ofTokens` reads a whole stream, and `Program.parse` a source text.
-/

namespace MatrixScript

namespace Stmt

open Reader

/-- The assignment a symbol stands for. -/
def assignOp? : Symbol → Option AssignOp
  | .equal => some .plain
  | .plusEqual => some (.compound .add)
  | .minusEqual => some (.compound .sub)
  | .starEqual => some (.compound .mul)
  | .slashEqual => some (.compound .div)
  | _ => none

/-- A condition in parentheses. -/
def condition (expr : Reader Expr) : Reader Expr := do
  let _ ← expect (.symbol .openParen)
  let test ← expr
  let _ ← expect (.symbol .closeParen)
  pure test

/-- An assignment. -/
def assignment (expr : Reader Expr) (fuel : Nat) : Reader Stmt := do
  let target ← Expr.variableOrReference expr fuel
  match ← acceptSymbol? assignOp? with
  | none => unexpected "assignment operator"
  | some op => do
      let value ← expr
      pure (.assign (target.span.merge value.span) target op value)

/-- The value of a return statement whose keyword has been taken. -/
def returnFrom (expr : Reader Expr) (start : Span) : Reader Stmt := do
  match ← peek? with
  | some (.symbol .semicolon) => pure (.return start none)
  | _ => do
      let value ← expr
      pure (.return (start.merge value.span) (some value))

/-- The arguments of a print statement whose keyword has been taken. -/
def printFrom (expr : Reader Expr) (fuel : Nat) (start : Span) : Reader Stmt := do
  let (arguments, last) ← tracked start (items expr fuel)
  pure (.print (start.merge last) arguments)

/-- A statement that ends with a semicolon, without the semicolon. -/
def simple (expr : Reader Expr) (fuel : Nat) : Reader Stmt := fun tokens =>
  match tokens with
  | ⟨.keyword .«break», span⟩ :: rest => .ok (.jump span .«break», rest)
  | ⟨.keyword .«continue», span⟩ :: rest => .ok (.jump span .«continue», rest)
  | ⟨.keyword .«return», span⟩ :: rest => returnFrom expr span rest
  | ⟨.keyword .print, span⟩ :: rest => printFrom expr fuel span rest
  | ⟨.identifier _, _⟩ :: _ => assignment expr fuel tokens
  | _ => unexpected "statement" tokens

/-- The statements of a block up to its closing brace; at most `fuel` of them. -/
def blockBody (statement : Reader Stmt) : Nat → Reader (List Stmt × Span)
  | 0 => unexpected "`\x7d`"
  | fuel + 1 => do
      match ← accept? (.symbol .closeBrace) with
      | some close => pure ([], close)
      | none => do
          match ← peek? with
          | none => unexpected "`\x7d`"
          | some _ => do
              let head ← statement
              let (tail, close) ← blockBody statement fuel
              pure (head :: tail, close)

/-- A block whose opening brace has been taken. -/
def blockFrom (statement : Reader Stmt) (fuel : Nat) (start : Span) : Reader Stmt := do
  let (body, close) ← blockBody statement fuel
  pure (.block (start.merge close) body)

/-- A branch whose keyword has been taken. -/
def branchFrom (expr : Reader Expr) (statement : Reader Stmt) (start : Span) : Reader Stmt := do
  let test ← condition expr
  let thenBranch ← statement
  match ← accept? (.keyword .«else») with
  | some _ => do
      let elseBranch ← statement
      pure (.branch (start.merge elseBranch.span) test thenBranch (some elseBranch))
  | none => pure (.branch (start.merge thenBranch.span) test thenBranch none)

/-- A while loop whose keyword has been taken. -/
def whileFrom (expr : Reader Expr) (statement : Reader Stmt) (start : Span) : Reader Stmt := do
  let test ← condition expr
  let body ← statement
  pure (.whileLoop (start.merge body.span) test body)

/-- A for loop whose keyword has been taken. -/
def forFrom (expr : Reader Expr) (statement : Reader Stmt) (start : Span) : Reader Stmt := do
  let counter ← identifier
  let _ ← expect (.symbol .equal)
  let first ← expr
  let _ ← expect (.symbol .colon)
  let last ← expr
  let body ← statement
  pure (.forLoop (start.merge body.span) counter first last body)

/-- A statement with its closing semicolon. -/
def terminated (expr : Reader Expr) (fuel : Nat) : Reader Stmt := do
  let statement ← simple expr fuel
  let _ ← expect (.symbol .semicolon)
  pure statement

/-- A statement.  More fuel than there are tokens is enough. -/
def reader : Nat → Reader Stmt
  | 0 => unexpected "statement"
  | fuel + 1 => fun tokens =>
      match tokens with
      | ⟨.symbol .openBrace, span⟩ :: rest => blockFrom (reader fuel) fuel span rest
      | ⟨.keyword .«if», span⟩ :: rest =>
          branchFrom (Expr.reader fuel) (reader fuel) span rest
      | ⟨.keyword .«while», span⟩ :: rest =>
          whileFrom (Expr.reader fuel) (reader fuel) span rest
      | ⟨.keyword .«for», span⟩ :: rest =>
          forFrom (Expr.reader fuel) (reader fuel) span rest
      | _ => terminated (Expr.reader (fuel + 1)) fuel tokens

end Stmt

namespace Program

/-- Statements up to the end of the stream; at most `fuel` of them. -/
def statements (statement : Reader Stmt) : Nat → TokenStream → Except Rejection (List Stmt)
  | _, [] => .ok []
  | 0, _ => .ok []
  | fuel + 1, tokens =>
      match statement tokens with
      | .error rejection => .error rejection
      | .ok (head, rest) =>
          match statements statement fuel rest with
          | .error rejection => .error rejection
          | .ok tail => .ok (head :: tail)

/-- A whole stream of tokens as a program. -/
def ofTokens (tokens : TokenStream) : Except Rejection Program :=
  match statements (Stmt.reader (tokens.length + 1)) tokens.length tokens with
  | .error rejection => .error rejection
  | .ok body => .ok ⟨body⟩

/-- The number of lines of a text; a final line break begins no further line. -/
def lineCount (source : String) : Nat :=
  match source.toList.getLast? with
  | none => 0
  | some last => source.toList.count '\n' + if last = '\n' then 0 else 1

/-- The empty span behind a text, on its last line. -/
def endSpan (source : String) : Span :=
  ⟨source.utf8ByteSize, source.utf8ByteSize, max 1 (lineCount source)⟩

/-- The program that a source text spells, or the first error in it. -/
def parse (source : String) : Except SourceError Program :=
  match Token.scan source with
  | .error error => .error error
  | .ok tokens =>
      match ofTokens tokens with
      | .error rejection =>
          .error (.grammatical rejection.message (rejection.span?.getD (endSpan source)))
      | .ok program => .ok program

end Program

end MatrixScript
