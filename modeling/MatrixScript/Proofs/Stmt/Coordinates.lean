import MatrixScript.Proofs.Expr.Soundness
import MatrixScript.Proofs.Stmt.ParserCompleteness

/-!
# References in programs that were read from tokens

The grammar has no reference without coordinates, although the trees have room for one.
So every reference in a program that was read from tokens has a coordinate.  The
argument goes through the grammar, whose trees are bare: a tree and its bare form have
the same nodes up to spans.
-/

namespace MatrixScript

/-! ## Nodes of bare trees -/

namespace Expr

theorem nodesOfAll_bareAll {exprs : List Expr}
    (each : ∀ expr ∈ exprs, expr.bare.nodes = expr.nodes.map bare) :
    nodesOfAll (bareAll exprs) = (nodesOfAll exprs).map bare := by
  induction exprs with
  | nil => rfl
  | cons head tail ih =>
      rw [List.forall_mem_cons] at each
      rw [bareAll, nodesOfAll, nodesOfAll, List.map_append, each.1, ih each.2]

theorem rowNodes_bareAll {rows : List Row}
    (each : ∀ row ∈ rows, ∀ cell ∈ row.cells, cell.bare.nodes = cell.nodes.map bare) :
    Row.nodesOfAll (Row.bareAll rows) = (Row.nodesOfAll rows).map bare := by
  induction rows with
  | nil => rfl
  | cons head tail ih =>
      cases head with
      | mk span cells =>
          rcases List.forall_mem_cons.mp each with ⟨cellsSame, tailSame⟩
          have here : nodesOfAll (bareAll cells) = (nodesOfAll cells).map bare :=
            nodesOfAll_bareAll cellsSame
          rw [Row.bareAll, Row.nodesOfAll, Row.nodesOfAll, List.map_append, here, ih tailSame]

theorem nodes_bare (expr : Expr) : expr.bare.nodes = expr.nodes.map bare := by
  induction expr with
  | int => rfl
  | float => rfl
  | string => rfl
  | var => rfl
  | vector span elements each =>
      rw [bare, nodes, nodes, List.map_cons, nodesOfAll_bareAll each, bare]
  | matrix span rows each =>
      rw [bare, nodes, nodes, List.map_cons, rowNodes_bareAll each, bare]
  | reference span name coordinates each =>
      rw [bare, nodes, nodes, List.map_cons, nodesOfAll_bareAll each, bare]
  | call span builtin arguments each =>
      rw [bare, nodes, nodes, List.map_cons, nodesOfAll_bareAll each, bare]
  | binary span left op right leftSame rightSame =>
      rw [bare, nodes, nodes, List.map_cons, List.map_append, leftSame, rightSame, bare]
  | compare span left op right leftSame rightSame =>
      rw [bare, nodes, nodes, List.map_cons, List.map_append, leftSame, rightSame, bare]
  | unary span op operand same => rw [bare, nodes, nodes, List.map_cons, same, bare]

theorem indexed_bare (expr : Expr) : expr.bare.Indexed ↔ expr.Indexed := by
  cases expr with
  | reference span name coordinates => simp [bare, Indexed, bareAll_eq_map]
  | _ => exact Iff.rfl

theorem indexed_of_bare {expr : Expr} (indexed : ∀ node ∈ expr.bare.nodes, node.Indexed) :
    ∀ node ∈ expr.nodes, node.Indexed := by
  intro node member
  rw [← indexed_bare]
  apply indexed
  rw [nodes_bare]
  exact List.mem_map_of_mem member

end Expr

namespace Stmt

theorem nodesOfAll_bareAll {statements : List Stmt}
    (each : ∀ statement ∈ statements, statement.bare.nodes = statement.nodes.map bare) :
    nodesOfAll (bareAll statements) = (nodesOfAll statements).map bare := by
  induction statements with
  | nil => rfl
  | cons head tail ih =>
      rw [List.forall_mem_cons] at each
      rw [bareAll, nodesOfAll, nodesOfAll, List.map_append, each.1, ih each.2]

theorem nodes_bare (statement : Stmt) : statement.bare.nodes = statement.nodes.map bare := by
  induction statement with
  | block span body each =>
      rw [bare, nodes, nodes, List.map_cons, nodesOfAll_bareAll each, bare]
  | jump => rfl
  | print => rfl
  | «return» => rfl
  | assign => rfl
  | branch span condition thenBranch thenSame =>
      rw [bare, nodes, nodes, List.map_cons, thenSame, bare]
  | alternative span condition thenBranch elseBranch thenSame elseSame =>
      rw [bare, nodes, nodes, List.map_cons, List.map_append, thenSame, elseSame, bare]
  | whileLoop span condition body same => rw [bare, nodes, nodes, List.map_cons, same, bare]
  | forLoop span counter first last body same =>
      rw [bare, nodes, nodes, List.map_cons, same, bare]

theorem exprs_bare (statement : Stmt) : statement.bare.exprs = statement.exprs.map Expr.bare := by
  cases statement with
  | print span arguments => exact Expr.bareAll_eq_map arguments
  | «return» span value => cases value <;> rfl
  | branch span condition thenBranch elseBranch => cases elseBranch <;> rfl
  | _ => rfl

end Stmt

/-! ## Trees of the grammar -/

/-- Every expression inside a phrase. -/
def Phrase.nodes : Phrase → List Expr
  | .whole expr | .chain _ expr | .signed expr | .quoted expr | .primary expr
  | .target expr => expr.nodes
  | .row entries => Expr.nodesOfAll entries.cells

theorem Phrase.nodes_operand (level : Level) (expr : Expr) :
    (level.operand expr).nodes = expr.nodes := by
  cases level <;> rfl

/-- Expressions that are spelled one by one have references with coordinates. -/
theorem Expr.indexed_parts {parts : List (Expr × List Token)}
    (each : ∀ part ∈ parts, ∀ node ∈ part.1.nodes, node.Indexed) :
    ∀ node ∈ nodesOfAll (parts.map Prod.fst), node.Indexed := by
  intro node member
  rcases mem_nodesOfAll.mp member with ⟨expr, found, inside⟩
  rcases List.mem_map.mp found with ⟨part, inParts, rfl⟩
  exact each part inParts node inside

theorem Phrase.Derives.indexed {phrase : Phrase} {tokens : List Token}
    (derives : phrase.Derives tokens) : ∀ node ∈ phrase.nodes, node.Indexed := by
  induction derives with
  | sum sum ih => exact ih
  | compare first means second firstIH secondIH =>
      intro node member
      rcases List.mem_cons.mp member with rfl | member
      · trivial
      · exact (List.mem_append.mp member).elim (firstIH node) (secondIH node)
  | operand operand ih =>
      rw [nodes_operand] at ih
      exact ih
  | binary first means second firstIH secondIH =>
      rw [nodes_operand] at secondIH
      intro node member
      rcases List.mem_cons.mp member with rfl | member
      · trivial
      · exact (List.mem_append.mp member).elim (firstIH node) (secondIH node)
  | quoted quoted ih => exact ih
  | negate operand ih => exact List.forall_mem_cons.mpr ⟨trivial, ih⟩
  | primary primary ih => exact ih
  | transpose operand ih => exact List.forall_mem_cons.mpr ⟨trivial, ih⟩
  | int value => exact List.forall_mem_singleton.mpr trivial
  | float value => exact List.forall_mem_singleton.mpr trivial
  | string value => exact List.forall_mem_singleton.mpr trivial
  | target target ih => exact ih
  | call each ih => exact List.forall_mem_cons.mpr ⟨trivial, Expr.indexed_parts ih⟩
  | parenthesized inner ih => exact ih
  | vector each oneBracket ih =>
      exact List.forall_mem_cons.mpr ⟨trivial, Expr.indexed_parts ih⟩
  | matrix nonempty each ih =>
      refine List.forall_mem_cons.mpr ⟨trivial, ?_⟩
      intro node member
      rcases Expr.mem_rowNodes.mp member with ⟨row, found, inside⟩
      rcases List.mem_map.mp found with ⟨part, inParts, rfl⟩
      exact ih part inParts node inside
  | row each ih => exact Expr.indexed_parts ih
  | var name => exact List.forall_mem_singleton.mpr trivial
  | reference nonempty each colons ih =>
      refine List.forall_mem_cons.mpr ⟨?_, Expr.indexed_parts ih⟩
      intro none
      exact nonempty (List.map_eq_nil_iff.mp none)

namespace Stmt

/-- Every reference in the statement itself has a coordinate. -/
def Indexed (statement : Stmt) : Prop :=
  ∀ node ∈ statement.expressions, node.Indexed

theorem Indexed.coordinates {span targetSpan : Span} {name : Located String}
    {coordinates : List Expr} {op : AssignOp} {value : Expr}
    (indexed : (Stmt.assign span (.reference targetSpan name coordinates) op value).Indexed) :
    coordinates ≠ [] := by
  apply indexed (.reference targetSpan name coordinates)
  exact Expr.mem_nodesOfAll.mpr ⟨_, List.mem_cons_self, Expr.self_mem_nodes _⟩

theorem indexed_of_exprs {statement : Stmt}
    (each : ∀ expr ∈ statement.exprs, ∀ node ∈ expr.nodes, node.Indexed) :
    statement.Indexed := by
  intro node member
  rcases Expr.mem_nodesOfAll.mp member with ⟨expr, found, inside⟩
  exact each expr found node inside

theorem Simple.indexed {statement : Stmt} {tokens : List Token}
    (simple : Simple statement tokens) : statement.Indexed := by
  cases simple with
  | «break» => exact indexed_of_exprs (by simp [exprs])
  | «continue» => exact indexed_of_exprs (by simp [exprs])
  | returnNothing => exact indexed_of_exprs (by simp [exprs])
  | returnValue derives =>
      exact indexed_of_exprs (List.forall_mem_singleton.mpr derives.indexed)
  | print nonempty each => exact Expr.indexed_parts fun part member => (each part member).indexed
  | assign left means right =>
      apply indexed_of_exprs
      exact List.forall_mem_cons.mpr ⟨left.indexed, List.forall_mem_singleton.mpr right.indexed⟩

theorem Simple.nodes_eq {statement : Stmt} {tokens : List Token}
    (simple : Simple statement tokens) : statement.nodes = [statement] := by
  cases simple <;> rfl

theorem Derives.indexed {statement : Stmt} {tokens : List Token}
    (derives : statement.Derives tokens) : ∀ node ∈ statement.nodes, node.Indexed := by
  induction derives with
  | simple simple =>
      rw [simple.nodes_eq]
      exact List.forall_mem_singleton.mpr simple.indexed
  | block each ih =>
      rw [nodes]
      refine List.forall_mem_cons.mpr ⟨indexed_of_exprs (by simp [exprs]), ?_⟩
      intro node member
      rcases mem_nodesOfAll.mp member with ⟨statement, found, inside⟩
      rcases List.mem_map.mp found with ⟨part, inParts, rfl⟩
      exact ih part inParts node inside
  | branch tests runs ih =>
      rw [nodes]
      exact List.forall_mem_cons.mpr
        ⟨indexed_of_exprs (List.forall_mem_singleton.mpr tests.indexed), ih⟩
  | alternative tests runs closed otherwise thenIH elseIH =>
      rw [nodes]
      refine List.forall_mem_cons.mpr
        ⟨indexed_of_exprs (List.forall_mem_singleton.mpr tests.indexed), ?_⟩
      intro node member
      exact (List.mem_append.mp member).elim (thenIH node) (elseIH node)
  | whileLoop tests runs ih =>
      rw [nodes]
      exact List.forall_mem_cons.mpr
        ⟨indexed_of_exprs (List.forall_mem_singleton.mpr tests.indexed), ih⟩
  | forLoop starts stops runs ih =>
      rw [nodes]
      refine List.forall_mem_cons.mpr ⟨indexed_of_exprs ?_, ih⟩
      exact List.forall_mem_cons.mpr
        ⟨starts.indexed, List.forall_mem_singleton.mpr stops.indexed⟩

theorem Indexed.of_bare {statement : Stmt} (indexed : statement.bare.Indexed) :
    statement.Indexed := by
  apply indexed_of_exprs
  intro expr member
  apply Expr.indexed_of_bare
  intro node inside
  apply indexed node
  rw [expressions, exprs_bare]
  exact Expr.mem_nodesOfAll.mpr ⟨expr.bare, List.mem_map_of_mem member, inside⟩

end Stmt

namespace Program

theorem ofTokens_sound {tokens : TokenStream} {program : Program}
    (parsed : ofTokens tokens = .ok program) : program.bare.Derives tokens.spelling := by
  unfold ofTokens at parsed
  split at parsed
  · cases parsed
  · rename_i body ran
    cases parsed
    exact statements_sound (Stmt.reader_reads _) (Nat.le_refl _) ran

/-- Every reference in a program that was read from tokens has a coordinate. -/
theorem ofTokens_indexed {tokens : TokenStream} {program : Program}
    (parsed : ofTokens tokens = .ok program) : ∀ node ∈ program.nodes, node.Indexed := by
  rcases ofTokens_sound parsed with ⟨parts, bodyIs, _, each⟩
  intro node member
  rcases Stmt.mem_nodesOfAll.mp member with ⟨statement, inBody, inside⟩
  have bareBody : statement.bare ∈ parts.map Prod.fst := by
    rw [← bodyIs, bare, Stmt.bareAll_eq_map]
    exact List.mem_map_of_mem inBody
  rcases List.mem_map.mp bareBody with ⟨part, inParts, isBare⟩
  have derives := each part inParts
  rw [isBare] at derives
  apply Stmt.Indexed.of_bare
  apply derives.indexed
  rw [Stmt.nodes_bare]
  exact List.mem_map_of_mem inside

theorem parse_indexed {source : String} {program : Program}
    (parsed : parse source = .ok program) : ∀ node ∈ program.nodes, node.Indexed := by
  unfold parse at parsed
  split at parsed
  · cases parsed
  · split at parsed
    · cases parsed
    · rename_i read
      cases parsed
      exact ofTokens_indexed read

end Program

end MatrixScript
