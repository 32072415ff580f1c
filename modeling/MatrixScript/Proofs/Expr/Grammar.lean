import MatrixScript.Expr
import MatrixScript.Proofs.Reader

/-!
# The grammar of expressions

Which lists of tokens spell which expression, apart from any reader.  The trees of the
grammar are bare: all their spans are the same one, and `Expr.bare` makes a tree bare.

A phrase is a nonterminal of the grammar together with the tree it stands for, and
`Phrase.Derives` has a rule for every form of every phrase.  A comparison has two sums;
there are four levels of binary operators, each a chain over the next one, and below
them minus signs, quotes and the primary expressions.
-/

namespace MatrixScript

mutual

/-- The same expression without spans. -/
def Expr.bare : Expr → Expr
  | .int _ value => .int default value
  | .float _ value => .float default value
  | .string _ value => .string default value
  | .var _ name => .var default name
  | .vector _ elements => .vector default (Expr.bareAll elements)
  | .matrix _ rows => .matrix default (Row.bareAll rows)
  | .reference _ name coordinates =>
      .reference default ⟨name.item, default⟩ (Expr.bareAll coordinates)
  | .call _ builtin arguments => .call default builtin (Expr.bareAll arguments)
  | .binary _ left op right => .binary default left.bare op right.bare
  | .compare _ left op right => .compare default left.bare op right.bare
  | .unary _ op operand => .unary default op operand.bare

/-- The same expressions without spans. -/
def Expr.bareAll : List Expr → List Expr
  | [] => []
  | head :: tail => head.bare :: Expr.bareAll tail

/-- The same rows without spans. -/
def Row.bareAll : List Row → List Row
  | [] => []
  | .mk _ cells :: tail => .mk default (Expr.bareAll cells) :: Row.bareAll tail

end

/-- The same row without spans. -/
def Row.bare : Row → Row
  | .mk _ cells => .mk default (Expr.bareAll cells)

theorem Expr.bareAll_eq_map (exprs : List Expr) : Expr.bareAll exprs = exprs.map Expr.bare := by
  induction exprs with
  | nil => rfl
  | cons head tail ih => rw [Expr.bareAll, ih, List.map_cons]

theorem Row.bareAll_eq_map (rows : List Row) : Row.bareAll rows = rows.map Row.bare := by
  induction rows with
  | nil => rfl
  | cons head tail ih =>
      cases head with
      | mk span cells => rw [Row.bareAll, ih, List.map_cons, Row.bare]

@[simp]
theorem Expr.bare_withSpan (span : Span) (expr : Expr) : (expr.withSpan span).bare = expr.bare := by
  cases expr <;> rfl

/-- The levels of binary operators, from the weakest. -/
inductive Level where
  | sum
  | dotSum
  | product
  | dotProduct

/-- The operators of a level with their symbols. -/
def Level.operators : Level → List (Symbol × BinaryOp)
  | .sum => [(.plus, .plain .add), (.minus, .plain .sub)]
  | .dotSum => [(.dotPlus, .elementwise .add), (.dotMinus, .elementwise .sub)]
  | .product => [(.star, .plain .mul), (.slash, .plain .div)]
  | .dotProduct => [(.dotStar, .elementwise .mul), (.dotSlash, .elementwise .div)]

/-- The comparisons with their symbols. -/
def Comparison.symbols : List (Symbol × Comparison) :=
  [(.less, .less), (.greater, .greater), (.lessEqual, .lessEqual),
    (.greaterEqual, .greaterEqual), (.equalEqual, .equal), (.notEqual, .notEqual)]

/-- The keyword of a matrix constructor. -/
def Builtin.keyword : Builtin → Keyword
  | .zeros => .zeros
  | .ones => .ones
  | .eye => .eye

/-- A nonterminal of the grammar, with the tree that it stands for. -/
inductive Phrase where
  | whole (expr : Expr)
  | chain (level : Level) (expr : Expr)
  | signed (expr : Expr)
  | quoted (expr : Expr)
  | primary (expr : Expr)
  /-- A variable or a reference. -/
  | target (expr : Expr)
  | row (row : Row)

/-- The operands of a level are the phrases of the next one. -/
def Level.operand : Level → Expr → Phrase
  | .sum, expr => .chain .dotSum expr
  | .dotSum, expr => .chain .product expr
  | .product, expr => .chain .dotProduct expr
  | .dotProduct, expr => .signed expr

/-- Any number of colons, each behind a comma. -/
def trailingColons (count : Nat) : List Token :=
  (List.replicate count [Token.symbol .comma, Token.symbol .colon]).flatten

theorem trailingColons_succ (count : Nat) :
    trailingColons (count + 1) = .symbol .comma :: .symbol .colon :: trailingColons count :=
  rfl

theorem length_trailingColons (count : Nat) : (trailingColons count).length = 2 * count := by
  induction count with
  | zero => rfl
  | succ count ih =>
      rw [trailingColons_succ, List.length_cons, List.length_cons, ih]
      omega

/-- The tokens spell the phrase. -/
inductive Phrase.Derives : Phrase → List Token → Prop where
  | sum {expr : Expr} {tokens : List Token} (sum : Derives (.chain .sum expr) tokens) :
      Derives (.whole expr) tokens
  | compare {left right : Expr} {front back : List Token} {symbol : Symbol} {op : Comparison}
      (first : Derives (.chain .sum left) front) (means : (symbol, op) ∈ Comparison.symbols)
      (second : Derives (.chain .sum right) back) :
      Derives (.whole (.compare default left op right)) (front ++ .symbol symbol :: back)
  | operand {level : Level} {expr : Expr} {tokens : List Token}
      (operand : Derives (level.operand expr) tokens) : Derives (.chain level expr) tokens
  | binary {level : Level} {left right : Expr} {front back : List Token} {symbol : Symbol}
      {op : BinaryOp} (first : Derives (.chain level left) front)
      (means : (symbol, op) ∈ level.operators) (second : Derives (level.operand right) back) :
      Derives (.chain level (.binary default left op right)) (front ++ .symbol symbol :: back)
  | quoted {expr : Expr} {tokens : List Token} (quoted : Derives (.quoted expr) tokens) :
      Derives (.signed expr) tokens
  | negate {expr : Expr} {tokens : List Token} (operand : Derives (.signed expr) tokens) :
      Derives (.signed (.unary default .negate expr)) (.symbol .minus :: tokens)
  | primary {expr : Expr} {tokens : List Token} (primary : Derives (.primary expr) tokens) :
      Derives (.quoted expr) tokens
  | transpose {expr : Expr} {tokens : List Token} (operand : Derives (.quoted expr) tokens) :
      Derives (.quoted (.unary default .transpose expr)) (tokens ++ [.symbol .quote])
  | int (value : Int64) : Derives (.primary (.int default value)) [.int value]
  | float (value : Float) : Derives (.primary (.float default value)) [.float value]
  | string (value : String) : Derives (.primary (.string default value)) [.string value]
  | target {expr : Expr} {tokens : List Token} (target : Derives (.target expr) tokens) :
      Derives (.primary expr) tokens
  | call {builtin : Builtin} {parts : List (Expr × List Token)}
      (each : ∀ part ∈ parts, Derives (.whole part.1) part.2) :
      Derives (.primary (.call default builtin (parts.map Prod.fst)))
        (.keyword builtin.keyword :: .symbol .openParen ::
          (commaSeparated (parts.map Prod.snd) ++ [.symbol .closeParen]))
  | parenthesized {expr : Expr} {tokens : List Token} (inner : Derives (.whole expr) tokens) :
      Derives (.primary expr) (.symbol .openParen :: (tokens ++ [.symbol .closeParen]))
  /-- What begins with two brackets is not a vector. -/
  | vector {parts : List (Expr × List Token)}
      (each : ∀ part ∈ parts, Derives (.whole part.1) part.2)
      (oneBracket : (commaSeparated (parts.map Prod.snd)).head? ≠ some (.symbol .openBracket)) :
      Derives (.primary (.vector default (parts.map Prod.fst)))
        (.symbol .openBracket ::
          (commaSeparated (parts.map Prod.snd) ++ [.symbol .closeBracket]))
  | matrix {parts : List (Row × List Token)} (nonempty : parts ≠ [])
      (each : ∀ part ∈ parts, Derives (.row part.1) part.2) :
      Derives (.primary (.matrix default (parts.map Prod.fst)))
        (.symbol .openBracket ::
          (commaSeparated (parts.map Prod.snd) ++ [.symbol .closeBracket]))
  | row {parts : List (Expr × List Token)}
      (each : ∀ part ∈ parts, Derives (.whole part.1) part.2) :
      Derives (.row (.mk default (parts.map Prod.fst)))
        (.symbol .openBracket ::
          (commaSeparated (parts.map Prod.snd) ++ [.symbol .closeBracket]))
  | var (name : String) : Derives (.target (.var default name)) [.identifier name]
  /-- The colons behind the coordinates leave no trace in the tree. -/
  | reference {name : String} {parts : List (Expr × List Token)} (nonempty : parts ≠ [])
      (each : ∀ part ∈ parts, Derives (.whole part.1) part.2) (colons : Nat) :
      Derives (.target (.reference default ⟨name, default⟩ (parts.map Prod.fst)))
        (.identifier name :: .symbol .openBracket ::
          (commaSeparated (parts.map Prod.snd) ++ trailingColons colons ++
            [.symbol .closeBracket]))

end MatrixScript
