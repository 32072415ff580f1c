import MatrixScript.Stmt
import MatrixScript.Proofs.Expr.Grammar
import MatrixScript.Proofs.Stmt.Nodes

/-!
# The grammar of statements and programs

Which lists of tokens spell which statement, over the grammar of expressions.  Blocks,
branches and loops are built from statements; all others are simple, and a semicolon
follows them.

A branch without alternative at the end of a statement is open: an `else` behind it is
its own.  So what stands between a condition and an `else` must not end open.
-/

namespace MatrixScript

mutual

/-- The same statement without spans. -/
def Stmt.bare : Stmt → Stmt
  | .block _ body => .block default (Stmt.bareAll body)
  | .jump _ kind => .jump default kind
  | .print _ arguments => .print default (Expr.bareAll arguments)
  | .return _ value => .return default (value.map Expr.bare)
  | .assign _ target op value => .assign default target.bare op value.bare
  | .branch _ condition thenBranch none => .branch default condition.bare thenBranch.bare none
  | .branch _ condition thenBranch (some elseBranch) =>
      .branch default condition.bare thenBranch.bare (some elseBranch.bare)
  | .whileLoop _ condition body => .whileLoop default condition.bare body.bare
  | .forLoop _ counter first last body =>
      .forLoop default ⟨counter.item, default⟩ first.bare last.bare body.bare

/-- The same statements without spans. -/
def Stmt.bareAll : List Stmt → List Stmt
  | [] => []
  | head :: tail => head.bare :: Stmt.bareAll tail

end

theorem Stmt.bareAll_eq_map (statements : List Stmt) :
    Stmt.bareAll statements = statements.map Stmt.bare := by
  induction statements with
  | nil => rfl
  | cons head tail ih => rw [Stmt.bareAll, ih, List.map_cons]

/-- The same program without spans. -/
def Program.bare (program : Program) : Program :=
  ⟨Stmt.bareAll program.body⟩

/-- The statement ends with a branch that has no alternative. -/
def Stmt.endsOpen : Stmt → Bool
  | .branch _ _ _ none => true
  | .branch _ _ _ (some elseBranch) => elseBranch.endsOpen
  | .whileLoop _ _ body | .forLoop _ _ _ _ body => body.endsOpen
  | _ => false

@[simp]
theorem Stmt.endsOpen_bare (statement : Stmt) : statement.bare.endsOpen = statement.endsOpen := by
  induction statement with
  | block => rfl
  | jump => rfl
  | print => rfl
  | «return» => rfl
  | assign => rfl
  | branch => rfl
  | alternative span condition thenBranch elseBranch thenSame elseSame => exact elseSame
  | whileLoop span condition body same => exact same
  | forLoop span counter first last body same => exact same

/-- The assignments with their symbols. -/
def AssignOp.symbols : List (Symbol × AssignOp) :=
  [(.equal, .plain), (.plusEqual, .compound .add), (.minusEqual, .compound .sub),
    (.starEqual, .compound .mul), (.slashEqual, .compound .div)]

namespace Stmt

/-- The tokens spell the simple statement, without its semicolon. -/
inductive Simple : Stmt → List Token → Prop where
  | «break» : Simple (.jump default .«break») [.keyword .«break»]
  | «continue» : Simple (.jump default .«continue») [.keyword .«continue»]
  | returnNothing : Simple (.return default none) [.keyword .«return»]
  | returnValue {value : Expr} {tokens : List Token}
      (derives : (Phrase.whole value).Derives tokens) :
      Simple (.return default (some value)) (.keyword .«return» :: tokens)
  | print {parts : List (Expr × List Token)} (nonempty : parts ≠ [])
      (each : ∀ part ∈ parts, (Phrase.whole part.1).Derives part.2) :
      Simple (.print default (parts.map Prod.fst))
        (.keyword .print :: commaSeparated (parts.map Prod.snd))
  | assign {target value : Expr} {front back : List Token} {symbol : Symbol} {op : AssignOp}
      (left : (Phrase.target target).Derives front) (means : (symbol, op) ∈ AssignOp.symbols)
      (right : (Phrase.whole value).Derives back) :
      Simple (.assign default target op value) (front ++ .symbol symbol :: back)

/-- The tokens spell the statement. -/
inductive Derives : Stmt → List Token → Prop where
  | simple {statement : Stmt} {tokens : List Token} (simple : Simple statement tokens) :
      Derives statement (tokens ++ [.symbol .semicolon])
  | block {parts : List (Stmt × List Token)}
      (each : ∀ part ∈ parts, Derives part.1 part.2) :
      Derives (.block default (parts.map Prod.fst))
        (.symbol .openBrace :: ((parts.map Prod.snd).flatten ++ [.symbol .closeBrace]))
  | branch {condition : Expr} {thenBranch : Stmt} {test body : List Token}
      (tests : (Phrase.whole condition).Derives test) (runs : Derives thenBranch body) :
      Derives (.branch default condition thenBranch none)
        (.keyword .«if» :: .symbol .openParen :: (test ++ .symbol .closeParen :: body))
  | alternative {condition : Expr} {thenBranch elseBranch : Stmt} {test body other : List Token}
      (tests : (Phrase.whole condition).Derives test) (runs : Derives thenBranch body)
      (closed : thenBranch.endsOpen = false) (otherwise : Derives elseBranch other) :
      Derives (.branch default condition thenBranch (some elseBranch))
        (.keyword .«if» :: .symbol .openParen ::
          (test ++ .symbol .closeParen :: (body ++ .keyword .«else» :: other)))
  | whileLoop {condition : Expr} {body : Stmt} {test tokens : List Token}
      (tests : (Phrase.whole condition).Derives test) (runs : Derives body tokens) :
      Derives (.whileLoop default condition body)
        (.keyword .«while» :: .symbol .openParen :: (test ++ .symbol .closeParen :: tokens))
  | forLoop {name : String} {first last : Expr} {body : Stmt} {low high tokens : List Token}
      (starts : (Phrase.whole first).Derives low) (stops : (Phrase.whole last).Derives high)
      (runs : Derives body tokens) :
      Derives (.forLoop default ⟨name, default⟩ first last body)
        (.keyword .«for» :: .identifier name :: .symbol .equal ::
          (low ++ .symbol .colon :: (high ++ tokens)))

end Stmt

/-! ## First tokens -/

/-- The token can be the first one of a simple statement. -/
def Token.opensSimple : Token → Bool
  | .identifier _ => true
  | .keyword .«break» | .keyword .«continue» | .keyword .«return» | .keyword .print => true
  | _ => false

/-- The token can be the first one of a statement. -/
def Token.opensStatement : Token → Bool
  | .symbol .openBrace => true
  | .keyword .«if» | .keyword .«while» | .keyword .«for» => true
  | token => token.opensSimple

theorem Token.opensStatement_of_opensSimple {token : Token} (opens : token.opensSimple = true) :
    token.opensStatement = true := by
  unfold opensStatement
  split
  · rfl
  · rfl
  · rfl
  · rfl
  · exact opens

theorem Phrase.Derives.head_of_target {target : Expr} {tokens : List Token}
    (derives : (Phrase.target target).Derives tokens) :
    ∃ name others, tokens = .identifier name :: others := by
  cases derives with
  | var name => exact ⟨name, [], rfl⟩
  | reference => exact ⟨_, _, rfl⟩

theorem Stmt.Simple.opens {statement : Stmt} {tokens : List Token}
    (simple : Simple statement tokens) : ∃ head ∈ tokens.head?, head.opensSimple = true := by
  cases simple with
  | assign left means right =>
      rcases left.head_of_target with ⟨name, others, rfl⟩
      exact ⟨.identifier name, rfl, rfl⟩
  | _ => exact ⟨_, rfl, rfl⟩

theorem Stmt.Derives.opens {statement : Stmt} {tokens : List Token}
    (derives : statement.Derives tokens) :
    ∃ head ∈ tokens.head?, head.opensStatement = true := by
  cases derives with
  | simple simple =>
      rcases simple.opens with ⟨head, begins, opens⟩
      refine ⟨head, ?_, Token.opensStatement_of_opensSimple opens⟩
      rw [List.head?_append, begins]
      rfl
  | _ => exact ⟨_, rfl, rfl⟩

theorem Stmt.Derives.ne_nil {statement : Stmt} {tokens : List Token}
    (derives : statement.Derives tokens) : tokens ≠ [] := by
  rintro rfl
  rcases derives.opens with ⟨_, begins, _⟩
  cases begins

/-- The tokens spell the statements of the program, one after the other. -/
def Program.Derives (program : Program) (tokens : List Token) : Prop :=
  ∃ parts : List (Stmt × List Token), program.body = parts.map Prod.fst ∧
    tokens = (parts.map Prod.snd).flatten ∧ ∀ part ∈ parts, part.1.Derives part.2

end MatrixScript
