import MatrixScript.Stmt
import MatrixScript.Proofs.Expr.Grammar
import MatrixScript.Proofs.Token.Positions

/-!
# The nodes of a program and their tokens

A node is a statement, an expression, a row or a name with a span of its own.  It is written
as pieces, which are tokens and other nodes in the order of the text, and `Piece.Spell` says
which tokens spell them.  A closing semicolon belongs to what the statement is part of, and
the parentheses of a condition belong to the branch or loop.

A node covers the tokens that spell it when its span is their extent.  From this it follows
where its children are: in its span, and one behind the other.
-/

namespace MatrixScript

open TokenStream

/-! ## Nodes -/

/-- A part of a program that has a span. -/
inductive Node where
  | stmt (statement : Stmt)
  | expr (expr : Expr)
  | row (row : Row)
  /-- The name of a reference or the counter of a loop. -/
  | name (name : Located String)

/-- The nodes directly inside an expression. -/
def Expr.children : Expr → List Node
  | .int _ _ | .float _ _ | .string _ _ | .var _ _ => []
  | .vector _ elements => elements.map .expr
  | .matrix _ rows => rows.map .row
  | .reference _ name coordinates => .name name :: coordinates.map .expr
  | .call _ _ arguments => arguments.map .expr
  | .binary _ left _ right => [.expr left, .expr right]
  | .compare _ left _ right => [.expr left, .expr right]
  | .unary _ _ operand => [.expr operand]

/-- The nodes directly inside a statement. -/
def Stmt.children : Stmt → List Node
  | .block _ body => body.map .stmt
  | .jump _ _ => []
  | .print _ arguments => arguments.map .expr
  | .return _ value => value.toList.map .expr
  | .assign _ target _ value => [.expr target, .expr value]
  | .branch _ condition thenBranch elseBranch =>
      .expr condition :: .stmt thenBranch :: elseBranch.toList.map .stmt
  | .whileLoop _ condition body => [.expr condition, .stmt body]
  | .forLoop _ counter first last body =>
      [.name counter, .expr first, .expr last, .stmt body]

namespace Node

/-- The span of a node. -/
def span : Node → Span
  | .stmt statement => statement.span
  | .expr tree => tree.span
  | .row line => line.span
  | .name word => word.span

/-- The nodes directly inside a node. -/
def children : Node → List Node
  | .stmt statement => statement.children
  | .expr tree => tree.children
  | .row line => line.cells.map .expr
  | .name _ => []

/-- The inner node is the node itself, or inside it at any depth. -/
inductive Within (inner : Node) : Node → Prop where
  | self : Within inner inner
  | child {child node : Node} (within : Within inner child) (member : child ∈ node.children) :
      Within inner node

end Node

/-- The node is part of the program. -/
def Program.Contains (program : Program) (node : Node) : Prop :=
  ∃ statement ∈ program.body, node.Within (.stmt statement)

/-! ## Pieces -/

/-- What a node is written with. -/
inductive Piece where
  | token (token : Token)
  | node (node : Node)

namespace Piece

/-- The node that a piece is. -/
def node? : Piece → Option Node
  | .token _ => none
  | .node inner => some inner

/-- The piece that a symbol is. -/
def symbol (symbol : Symbol) : Piece :=
  .token (.symbol symbol)

@[simp]
theorem node?_token (token : Token) : (Piece.token token).node? = none := rfl

@[simp]
theorem node?_symbol (mark : Symbol) : (symbol mark).node? = none := rfl

@[simp]
theorem node?_node (inner : Node) : (Piece.node inner).node? = some inner := rfl

/-- The nodes, each behind a comma. -/
def following (nodes : List Node) : List Piece :=
  nodes.flatMap fun node => [symbol .comma, .node node]

/-- The nodes with commas between them. -/
def listed : List Node → List Piece
  | [] => []
  | head :: tail => .node head :: following tail

end Piece

/-- The symbol of a binary operator. -/
def BinaryOp.symbol : BinaryOp → Symbol
  | ⟨false, .add⟩ => .plus
  | ⟨false, .sub⟩ => .minus
  | ⟨false, .mul⟩ => .star
  | ⟨false, .div⟩ => .slash
  | ⟨true, .add⟩ => .dotPlus
  | ⟨true, .sub⟩ => .dotMinus
  | ⟨true, .mul⟩ => .dotStar
  | ⟨true, .div⟩ => .dotSlash

/-- The symbol of a comparison. -/
def Comparison.symbol : Comparison → Symbol
  | .less => .less
  | .greater => .greater
  | .lessEqual => .lessEqual
  | .greaterEqual => .greaterEqual
  | .equal => .equalEqual
  | .notEqual => .notEqual

/-- The symbol of an assignment. -/
def AssignOp.symbol : AssignOp → Symbol
  | .plain => .equal
  | .compound .add => .plusEqual
  | .compound .sub => .minusEqual
  | .compound .mul => .starEqual
  | .compound .div => .slashEqual

/-- The keyword of a jump. -/
def Jump.keyword : Jump → Keyword
  | .«break» => .«break»
  | .«continue» => .«continue»

/--
How an expression is written without parentheses around it.  The tree of a reference does
not keep the number of colons behind its coordinates.
-/
def Expr.pieces (colons : Nat) : Expr → List Piece
  | .int _ value => [.token (.int value)]
  | .float _ value => [.token (.float value)]
  | .string _ value => [.token (.string value)]
  | .var _ name => [.token (.identifier name)]
  | .vector _ elements =>
      .symbol .openBracket :: (Piece.listed (elements.map .expr) ++ [.symbol .closeBracket])
  | .matrix _ rows =>
      .symbol .openBracket :: (Piece.listed (rows.map .row) ++ [.symbol .closeBracket])
  | .reference _ name coordinates =>
      .node (.name name) :: .symbol .openBracket ::
        (Piece.listed (coordinates.map .expr) ++ (trailingColons colons).map .token ++
          [.symbol .closeBracket])
  | .call _ builtin arguments =>
      .token (.keyword builtin.keyword) :: .symbol .openParen ::
        (Piece.listed (arguments.map .expr) ++ [.symbol .closeParen])
  | .binary _ left op right => [.node (.expr left), .symbol op.symbol, .node (.expr right)]
  | .compare _ left op right => [.node (.expr left), .symbol op.symbol, .node (.expr right)]
  | .unary _ .negate operand => [.symbol .minus, .node (.expr operand)]
  | .unary _ .transpose operand => [.node (.expr operand), .symbol .quote]

namespace Stmt

/-- A semicolon follows the statement. -/
def takesSemicolon : Stmt → Bool
  | .block _ _ => false
  | .branch _ _ thenBranch none => thenBranch.takesSemicolon
  | .branch _ _ _ (some elseBranch) => elseBranch.takesSemicolon
  | .whileLoop _ _ body | .forLoop _ _ _ _ body => body.takesSemicolon
  | _ => true

/-- What follows the statement and belongs to it no more. -/
def terminator (statement : Stmt) : List Piece :=
  if statement.takesSemicolon then [.symbol .semicolon] else []

/-- The statement and what follows it. -/
def withTerminator (statement : Stmt) : List Piece :=
  .node (.stmt statement) :: statement.terminator

/-- How a statement is written without a closing semicolon. -/
def pieces : Stmt → List Piece
  | .block _ body => .symbol .openBrace :: (body.flatMap withTerminator ++ [.symbol .closeBrace])
  | .jump _ kind => [.token (.keyword kind.keyword)]
  | .print _ arguments => .token (.keyword .print) :: Piece.listed (arguments.map .expr)
  | .return _ none => [.token (.keyword .«return»)]
  | .return _ (some value) => [.token (.keyword .«return»), .node (.expr value)]
  | .assign _ target op value =>
      [.node (.expr target), .symbol op.symbol, .node (.expr value)]
  | .branch _ condition thenBranch none =>
      [.token (.keyword .«if»), .symbol .openParen, .node (.expr condition), .symbol .closeParen,
        .node (.stmt thenBranch)]
  | .branch _ condition thenBranch (some elseBranch) =>
      .token (.keyword .«if») :: .symbol .openParen :: .node (.expr condition) ::
        .symbol .closeParen ::
          (thenBranch.withTerminator ++ [.token (.keyword .«else»), .node (.stmt elseBranch)])
  | .whileLoop _ condition body =>
      [.token (.keyword .«while»), .symbol .openParen, .node (.expr condition),
        .symbol .closeParen, .node (.stmt body)]
  | .forLoop _ counter first last body =>
      [.token (.keyword .«for»), .node (.name counter), .symbol .equal, .node (.expr first),
        .symbol .colon, .node (.expr last), .node (.stmt body)]

end Stmt

/-- How a node is written; only around expressions there can be parentheses. -/
def Node.pieces (colons parentheses : Nat) : Node → List Piece
  | .stmt statement => statement.pieces
  | .expr tree =>
      List.replicate parentheses (.symbol .openParen) ++ tree.pieces colons ++
        List.replicate parentheses (.symbol .closeParen)
  | .row line =>
      .symbol .openBracket :: (Piece.listed (line.cells.map .expr) ++ [.symbol .closeBracket])
  | .name word => [.token (.identifier word.item)]

/-! ## The nodes among the pieces -/

namespace Piece

@[simp]
theorem filterMap_following (nodes : List Node) : (following nodes).filterMap node? = nodes := by
  induction nodes with
  | nil => rfl
  | cons head tail ih =>
      rw [following, List.flatMap_cons, List.filterMap_append]
      exact congrArg (head :: ·) ih

@[simp]
theorem filterMap_listed (nodes : List Node) : (listed nodes).filterMap node? = nodes := by
  cases nodes with
  | nil => rfl
  | cons head tail => exact congrArg (head :: ·) (filterMap_following tail)

@[simp]
theorem filterMap_tokens (tokens : List Token) :
    (tokens.map Piece.token).filterMap node? = [] := by
  rw [List.filterMap_map]
  exact List.filterMap_eq_nil_iff.mpr fun _ _ => rfl

@[simp]
theorem filterMap_symbols (count : Nat) (symbol : Symbol) :
    (List.replicate count (Piece.symbol symbol)).filterMap node? = [] := by
  apply List.filterMap_eq_nil_iff.mpr
  intro piece member
  rw [List.eq_of_mem_replicate member]
  exact node?_symbol symbol

end Piece

namespace Stmt

@[simp]
theorem filterMap_withTerminator (statement : Stmt) :
    statement.withTerminator.filterMap Piece.node? = [.stmt statement] := by
  rw [withTerminator, terminator]
  split <;> rfl

@[simp]
theorem filterMap_body (body : List Stmt) :
    (body.flatMap withTerminator).filterMap Piece.node? = body.map .stmt := by
  induction body with
  | nil => rfl
  | cons head tail ih =>
      rw [List.flatMap_cons, List.filterMap_append, filterMap_withTerminator, ih]
      rfl

end Stmt

theorem Expr.filterMap_pieces (colons : Nat) (expr : Expr) :
    (expr.pieces colons).filterMap Piece.node? = expr.children := by
  cases expr with
  | unary span op operand => cases op <;> rfl
  | _ => simp [pieces, children, List.filterMap_cons]

theorem Stmt.filterMap_pieces (statement : Stmt) :
    statement.pieces.filterMap Piece.node? = statement.children := by
  cases statement with
  | «return» span value => cases value <;> rfl
  | branch span condition thenBranch elseBranch =>
      cases elseBranch <;> simp [pieces, children, List.filterMap_cons]
  | _ => simp [pieces, children, List.filterMap_cons]

/-- The nodes among the pieces of a node are its children. -/
theorem Node.filterMap_pieces (colons parentheses : Nat) (node : Node) :
    (node.pieces colons parentheses).filterMap Piece.node? = node.children := by
  cases node with
  | stmt statement => exact statement.filterMap_pieces
  | expr expr => simp [pieces, children, expr.filterMap_pieces]
  | row row => simp [pieces, children, List.filterMap_cons]
  | name name => rfl

/-! ## Tokens of pieces -/

/-- The tokens spell the pieces, and the span of every node among them is exact. -/
inductive Piece.Spell : List Piece → TokenStream → Prop where
  | nil : Spell [] []
  | token {token : Token} {span : Span} {pieces : List Piece} {tokens : TokenStream}
      (spell : Spell pieces tokens) : Spell (.token token :: pieces) (⟨token, span⟩ :: tokens)
  | node {node : Node} {colons parentheses : Nat} {pieces : List Piece}
      {inside tokens : TokenStream} (inner : Spell (node.pieces colons parentheses) inside)
      (reaches : extent? inside = some node.span) (spell : Spell pieces tokens) :
      Spell (.node node :: pieces) (inside ++ tokens)

/-- The tokens are those of the node, and its span is their extent. -/
def Node.Covers (node : Node) (tokens : TokenStream) : Prop :=
  ∃ colons parentheses, Piece.Spell (node.pieces colons parentheses) tokens ∧
    extent? tokens = some node.span

/-- The tokens are those of the statements of the program, and all its spans are exact. -/
def Program.Covers (program : Program) (tokens : TokenStream) : Prop :=
  Piece.Spell (program.body.flatMap Stmt.withTerminator) tokens

namespace Piece

variable {pieces others : List Piece} {tokens : TokenStream}

theorem spell_node_iff {node : Node} :
    Spell (.node node :: pieces) tokens ↔
      ∃ inside rest, tokens = inside ++ rest ∧ node.Covers inside ∧ Spell pieces rest := by
  constructor
  · rintro (_ | _ | ⟨inner, reaches, spell⟩)
    exact ⟨_, _, rfl, ⟨_, _, inner, reaches⟩, spell⟩
  · rintro ⟨inside, rest, rfl, ⟨colons, parentheses, inner, reaches⟩, spell⟩
    exact .node inner reaches spell

theorem spell_append_iff :
    Spell (pieces ++ others) tokens ↔
      ∃ front back, tokens = front ++ back ∧ Spell pieces front ∧ Spell others back := by
  induction pieces generalizing tokens with
  | nil =>
      constructor
      · intro spell
        exact ⟨[], tokens, rfl, .nil, spell⟩
      · rintro ⟨_, back, rfl, ⟨⟩, spell⟩
        exact spell
  | cons piece pieces ih =>
      cases piece with
      | token token =>
          constructor
          · rintro (_ | spell)
            rcases ih.mp spell with ⟨front, back, rfl, first, second⟩
            exact ⟨_ :: front, back, rfl, .token first, second⟩
          · rintro ⟨_, back, rfl, _ | first, second⟩
            exact .token (ih.mpr ⟨_, back, rfl, first, second⟩)
      | node node =>
          rw [List.cons_append, spell_node_iff]
          constructor
          · rintro ⟨inside, rest, rfl, covers, spell⟩
            rcases ih.mp spell with ⟨front, back, rfl, first, second⟩
            refine ⟨inside ++ front, back, by rw [List.append_assoc], ?_, second⟩
            exact spell_node_iff.mpr ⟨inside, front, rfl, covers, first⟩
          · rintro ⟨front, back, rfl, first, second⟩
            rcases spell_node_iff.mp first with ⟨inside, rest, rfl, covers, spell⟩
            refine ⟨inside, rest ++ back, by rw [List.append_assoc], covers, ?_⟩
            exact ih.mpr ⟨rest, back, rfl, spell, second⟩

theorem Spell.append {front back : TokenStream} (first : Spell pieces front)
    (second : Spell others back) : Spell (pieces ++ others) (front ++ back) :=
  spell_append_iff.mpr ⟨front, back, rfl, first, second⟩

theorem Spell.of_covers {node : Node} {inside rest : TokenStream} (covers : node.Covers inside)
    (spell : Spell pieces rest) : Spell (.node node :: pieces) (inside ++ rest) :=
  spell_node_iff.mpr ⟨inside, rest, rfl, covers, spell⟩

theorem Spell.of_covers_only {node : Node} (covers : node.Covers tokens) :
    Spell [.node node] tokens := by
  have spell := of_covers covers .nil
  rw [List.append_nil] at spell
  exact spell

theorem spell_tokens (tokens : TokenStream) : Spell ((spelling tokens).map .token) tokens := by
  induction tokens with
  | nil => exact .nil
  | cons token rest ih => exact .token ih

end Piece

/-! ## Nodes inside a node -/

namespace Piece.Spell

variable {pieces : List Piece} {tokens : TokenStream}

/-- A node among the pieces covers some of the tokens in a row. -/
theorem covers_of_mem (spell : Spell pieces tokens) {node : Node}
    (member : node ∈ pieces.filterMap node?) :
    ∃ front inside back, tokens = front ++ (inside ++ back) ∧ node.Covers inside := by
  induction spell with
  | nil => cases member
  | @token token span pieces tokens spell ih =>
      rcases ih member with ⟨front, inside, back, rfl, covers⟩
      exact ⟨⟨token, span⟩ :: front, inside, back, rfl, covers⟩
  | @node other colons parentheses pieces first tokens inner reaches spell _ ih =>
      rcases List.mem_cons.mp member with rfl | later
      · exact ⟨[], first, tokens, rfl, colons, parentheses, inner, reaches⟩
      · rcases ih later with ⟨front, inside, back, rfl, covers⟩
        exact ⟨first ++ front, inside, back, by rw [List.append_assoc], covers⟩

/-- The nodes among the pieces stand one behind the other. -/
theorem nodes_apart (spell : Spell pieces tokens) (ordered : Ordered tokens) :
    (pieces.filterMap node?).Pairwise fun first second => first.span.stop ≤ second.span.start := by
  induction spell with
  | nil => exact .nil
  | token spell ih => exact ih ordered.tail
  | @node head colons parentheses pieces first tokens inner reaches spell _ ih =>
      refine .cons ?_ (ih ordered.right)
      intro second member
      rcases spell.covers_of_mem member with ⟨front, inside, back, rfl, _, _, _, secondReaches⟩
      have shorter : Ordered (first ++ inside) := by
        refine ordered.of_sublist (List.Sublist.append_left ?_ first)
        exact (List.sublist_append_left inside back).trans (List.sublist_append_right front _)
      exact shorter.extents_apart reaches secondReaches

end Piece.Spell

theorem Node.covers_name (name : Located String) :
    (Node.name name).Covers [⟨.identifier name.item, name.span⟩] :=
  ⟨0, 0, .token .nil, rfl⟩

namespace Node.Covers

variable {node : Node} {tokens : TokenStream}

theorem extent (covers : node.Covers tokens) : extent? tokens = some node.span := by
  rcases covers with ⟨_, _, _, reaches⟩
  exact reaches

/-- A node inside a node covers some of its tokens in a row. -/
theorem of_within {inner : Node} (within : inner.Within node) (covers : node.Covers tokens) :
    ∃ front inside back, tokens = front ++ (inside ++ back) ∧ inner.Covers inside := by
  induction within generalizing tokens with
  | self => exact ⟨[], tokens, [], by simp, covers⟩
  | @child child node within member ih =>
      rcases covers with ⟨colons, parentheses, spell, _⟩
      rw [← node.filterMap_pieces colons parentheses] at member
      rcases spell.covers_of_mem member with ⟨before, middle, after, rfl, childCovers⟩
      rcases ih childCovers with ⟨front, inside, back, rfl, innerCovers⟩
      exact ⟨before ++ front, inside, back ++ after, by simp, innerCovers⟩

theorem children_apart (covers : node.Covers tokens) (ordered : Ordered tokens) :
    node.children.Pairwise fun first second => first.span.stop ≤ second.span.start := by
  rcases covers with ⟨colons, parentheses, spell, _⟩
  rw [← node.filterMap_pieces colons parentheses]
  exact spell.nodes_apart ordered

theorem child_within (covers : node.Covers tokens) (ordered : Ordered tokens) :
    ∀ child ∈ node.children,
      node.span.start ≤ child.span.start ∧ child.span.stop ≤ node.span.stop := by
  intro child member
  rcases of_within (.child .self member) covers with ⟨front, inside, back, rfl, childCovers⟩
  refine ordered.extent_within covers.extent ?_ childCovers.extent
  exact fun token inInside => List.mem_append_right front (List.mem_append_left back inInside)

end Node.Covers

end MatrixScript
