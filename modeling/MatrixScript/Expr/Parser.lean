import MatrixScript.TokenStream
import MatrixScript.Expr

/-!
# Reading expressions

Operators bind, from the weakest: comparisons, `+ -`, `.+ .-`, `* /`, `.* ./`, the
minus sign in front, the quote behind.  Arithmetic operators associate to the left
and comparisons do not associate.

The readers here are built over a reader for nested expressions.  `Expr.reader`
ties the knot; its fuel bounds the depth of nesting and the length of every list,
and the number of tokens is always enough for both.
-/

namespace MatrixScript.Expr

open Reader

/-- The comparison a symbol stands for. -/
def comparison? : Symbol → Option Comparison
  | .less => some .less
  | .greater => some .greater
  | .lessEqual => some .lessEqual
  | .greaterEqual => some .greaterEqual
  | .equalEqual => some .equal
  | .notEqual => some .notEqual
  | _ => none

/-- The operators `+` and `-`. -/
def additive? : Symbol → Option BinaryOp
  | .plus => some (.plain .add)
  | .minus => some (.plain .sub)
  | _ => none

/-- The operators `.+` and `.-`. -/
def dotAdditive? : Symbol → Option BinaryOp
  | .dotPlus => some (.elementwise .add)
  | .dotMinus => some (.elementwise .sub)
  | _ => none

/-- The operators `*` and `/`. -/
def multiplicative? : Symbol → Option BinaryOp
  | .star => some (.plain .mul)
  | .slash => some (.plain .div)
  | _ => none

/-- The operators `.*` and `./`. -/
def dotMultiplicative? : Symbol → Option BinaryOp
  | .dotStar => some (.elementwise .mul)
  | .dotSlash => some (.elementwise .div)
  | _ => none

/-- The constructor a keyword stands for. -/
def builtin? : Keyword → Option Builtin
  | .zeros => some .zeros
  | .ones => some .ones
  | .eye => some .eye
  | _ => none

/--
The coordinates of a reference, up to the closing bracket.  A colon selects a
whole dimension and adds no coordinate; after one there can only be further colons.
-/
def coordinates (nested : Reader Expr) : Nat → Bool → Reader (List Expr)
  | 0, _ => unexpected "coordinate"
  | fuel + 1, sliced => do
      match ← accept? (.symbol .colon) with
      | some _ => do
          match ← accept? (.symbol .comma) with
          | some _ => coordinates nested fuel true
          | none => pure []
      | none =>
          if sliced then
            reject "only trailing dimensions can be sliced with `:`"
          else do
            match ← peek? with
            | some (.symbol .closeBracket) => unexpected "coordinate"
            | _ => do
                let head ← nested
                match ← accept? (.symbol .comma) with
                | some _ => do
                    let tail ← coordinates nested fuel false
                    pure (head :: tail)
                | none => pure [head]

/-- A reference to an array whose name has been taken. -/
def referenceFrom (nested : Reader Expr) (fuel : Nat) (name : Located String) : Reader Expr := do
  let _ ← expect (.symbol .openBracket)
  let list ← coordinates nested fuel false
  let close ← expect (.symbol .closeBracket)
  let span := name.span.merge close
  match list with
  | [] => rejectAt "reference needs at least one explicit coordinate" span
  | _ => pure (.reference span name list)

/-- A variable, or a reference if a bracket follows the name. -/
def variableOrReference (nested : Reader Expr) (fuel : Nat) : Reader Expr := do
  let name ← identifier
  match ← peek? with
  | some (.symbol .openBracket) => referenceFrom nested fuel name
  | _ => pure (.var name.span name.item)

/-- The arguments of a constructor whose name has been taken. -/
def callFrom (nested : Reader Expr) (fuel : Nat) (builtin : Builtin) (start : Span) :
    Reader Expr := do
  let _ ← expect (.symbol .openParen)
  let (arguments, close) ← itemsUntil nested fuel .closeParen
  pure (.call (start.merge close) builtin arguments)

/-- A row of a matrix literal. -/
def row (nested : Reader Expr) (fuel : Nat) : Reader Row := do
  let start ← expect (.symbol .openBracket)
  let (cells, close) ← itemsUntil nested fuel .closeBracket
  pure (.mk (start.merge close) cells)

/-- A vector or matrix literal whose opening bracket has been taken. -/
def arrayFrom (nested : Reader Expr) (fuel : Nat) (start : Span) : Reader Expr := do
  match ← peek? with
  | some (.symbol .openBracket) => do
      let rows ← items (row nested fuel) fuel
      let close ← expect (.symbol .closeBracket)
      pure (.matrix (start.merge close) rows)
  | _ => do
      let (elements, close) ← itemsUntil nested fuel .closeBracket
      pure (.vector (start.merge close) elements)

/-- An expression in parentheses, of which the opening one has been taken. -/
def parenthesizedFrom (nested : Reader Expr) (start : Span) : Reader Expr := do
  let inner ← nested
  let close ← expect (.symbol .closeParen)
  pure (inner.withSpan (start.merge close))

/-- An expression without operators outside brackets. -/
def primary (nested : Reader Expr) (fuel : Nat) : Reader Expr := fun tokens =>
  match tokens with
  | [] => unexpected "expression" tokens
  | ⟨token, span⟩ :: rest =>
      match token with
      | .int value => .ok (.int span value, rest)
      | .float value => .ok (.float span value, rest)
      | .string value => .ok (.string span value, rest)
      | .identifier _ => variableOrReference nested fuel tokens
      | .symbol .openBracket => arrayFrom nested fuel span rest
      | .symbol .openParen => parenthesizedFrom nested span rest
      | .symbol _ => unexpected "expression" tokens
      | .keyword word =>
          match builtin? word with
          | some builtin => callFrom nested fuel builtin span rest
          | none => unexpected "expression" tokens

/-- The quotes behind an expression; at most `fuel` of them. -/
def quotes : Nat → Expr → Reader Expr
  | 0, operand => pure operand
  | fuel + 1, operand => do
      match ← accept? (.symbol .quote) with
      | some quote => quotes fuel (.unary (operand.span.merge quote) .transpose operand)
      | none => pure operand

/-- A primary expression and the quotes behind it. -/
def quoted (nested : Reader Expr) (fuel : Nat) : Reader Expr := do
  let operand ← primary nested fuel
  quotes fuel operand

/-- Minus signs, and the expression behind them; at most `fuel` signs. -/
def signed (nested : Reader Expr) (bound : Nat) : Nat → Reader Expr
  | 0 => quoted nested bound
  | fuel + 1 => do
      match ← accept? (.symbol .minus) with
      | some minus => do
          let operand ← signed nested bound fuel
          pure (.unary (minus.merge operand.span) .negate operand)
      | none => quoted nested bound

/-- Operators of one level and their right operands; at most `fuel` of them. -/
def chainFrom (operator? : Symbol → Option BinaryOp) (operand : Reader Expr) :
    Nat → Expr → Reader Expr
  | 0, left => pure left
  | fuel + 1, left => do
      match ← acceptSymbol? operator? with
      | none => pure left
      | some op => do
          let right ← operand
          chainFrom operator? operand fuel (.binary (left.span.merge right.span) left op right)

/-- One level of operators, which associate to the left. -/
def chain (operator? : Symbol → Option BinaryOp) (operand : Reader Expr) (fuel : Nat) :
    Reader Expr := do
  let left ← operand
  chainFrom operator? operand fuel left

/-- An expression without comparison outside brackets. -/
def arithmetic (nested : Reader Expr) (fuel : Nat) : Reader Expr :=
  chain additive?
    (chain dotAdditive?
      (chain multiplicative?
        (chain dotMultiplicative? (signed nested fuel fuel) fuel) fuel) fuel) fuel

/-- At most one comparison of two arithmetic expressions. -/
def comparison (nested : Reader Expr) (fuel : Nat) : Reader Expr := do
  let left ← arithmetic nested fuel
  match ← acceptSymbol? comparison? with
  | none => pure left
  | some op => do
      let right ← arithmetic nested fuel
      pure (.compare (left.span.merge right.span) left op right)

/-- An expression.  More fuel than there are tokens is enough. -/
def reader : Nat → Reader Expr
  | 0 => unexpected "expression"
  | fuel + 1 => comparison (reader fuel) fuel

end MatrixScript.Expr
