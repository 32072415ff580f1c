import MatrixScript.Expr

/-!
# The nodes of an expression

An expression holds expressions in lists and in rows of lists.  `Expr.nested` is
induction over all of them at once: a literal or a call may assume the statement
of every member of its lists.

`Expr.nodes` lists an expression together with every expression inside it.  A
condition on all parts of an expression is a condition on its nodes.
-/

namespace MatrixScript

/-- Induction on expressions, with one hypothesis for each expression directly inside. -/
@[elab_as_elim, induction_eliminator]
theorem Expr.nested {motive : Expr → Prop}
    (int : ∀ span value, motive (.int span value))
    (float : ∀ span value, motive (.float span value))
    (string : ∀ span value, motive (.string span value))
    (var : ∀ span name, motive (.var span name))
    (vector : ∀ span elements, (∀ element ∈ elements, motive element) →
      motive (.vector span elements))
    (matrix : ∀ span rows, (∀ row ∈ rows, ∀ cell ∈ Row.cells row, motive cell) →
      motive (.matrix span rows))
    (reference : ∀ span name coordinates,
      (∀ coordinate ∈ coordinates, motive coordinate) →
      motive (.reference span name coordinates))
    (call : ∀ span builtin arguments, (∀ argument ∈ arguments, motive argument) →
      motive (.call span builtin arguments))
    (binary : ∀ span left op right, motive left → motive right →
      motive (.binary span left op right))
    (compare : ∀ span left op right, motive left → motive right →
      motive (.compare span left op right))
    (unary : ∀ span op operand, motive operand → motive (.unary span op operand))
    (expr : Expr) : motive expr := by
  refine @Expr.rec motive (fun row => ∀ cell ∈ row.cells, motive cell)
    (fun exprs => ∀ expr ∈ exprs, motive expr)
    (fun rows => ∀ row ∈ rows, ∀ cell ∈ Row.cells row, motive cell)
    int float string var vector matrix reference call binary compare unary
    ?_ ?_ ?_ ?_ ?_ expr
  · intro span cells holds
    exact holds
  · intro expr member
    simp at member
  · intro head tail headHolds tailHolds expr member
    rcases List.mem_cons.mp member with rfl | member
    · exact headHolds
    · exact tailHolds expr member
  · intro row member
    simp at member
  · intro head tail headHolds tailHolds row member
    rcases List.mem_cons.mp member with rfl | member
    · exact headHolds
    · exact tailHolds row member

mutual

/-- An expression and every expression inside it. -/
def Expr.nodes : Expr → List Expr
  | .int span value => [.int span value]
  | .float span value => [.float span value]
  | .string span value => [.string span value]
  | .var span name => [.var span name]
  | .vector span elements => .vector span elements :: Expr.nodesOfAll elements
  | .matrix span rows => .matrix span rows :: Row.nodesOfAll rows
  | .reference span name coordinates =>
      .reference span name coordinates :: Expr.nodesOfAll coordinates
  | .call span builtin arguments =>
      .call span builtin arguments :: Expr.nodesOfAll arguments
  | .binary span left op right =>
      .binary span left op right :: (left.nodes ++ right.nodes)
  | .compare span left op right =>
      .compare span left op right :: (left.nodes ++ right.nodes)
  | .unary span op operand => .unary span op operand :: operand.nodes

/-- The nodes of several expressions. -/
def Expr.nodesOfAll : List Expr → List Expr
  | [] => []
  | head :: tail => head.nodes ++ Expr.nodesOfAll tail

/-- The nodes of the cells of several rows. -/
def Row.nodesOfAll : List Row → List Expr
  | [] => []
  | .mk _ cells :: tail => Expr.nodesOfAll cells ++ Row.nodesOfAll tail

end

namespace Expr

@[simp]
theorem self_mem_nodes (expr : Expr) : expr ∈ expr.nodes := by
  cases expr <;> simp [nodes]

theorem mem_nodesOfAll {node : Expr} {exprs : List Expr} :
    node ∈ nodesOfAll exprs ↔ ∃ expr ∈ exprs, node ∈ expr.nodes := by
  induction exprs with
  | nil => simp [nodesOfAll]
  | cons head tail ih => simp [nodesOfAll, ih]

theorem mem_rowNodes {node : Expr} {rows : List Row} :
    node ∈ Row.nodesOfAll rows ↔ ∃ row ∈ rows, node ∈ nodesOfAll row.cells := by
  induction rows with
  | nil => simp [Row.nodesOfAll]
  | cons head tail ih =>
      cases head with
      | mk span cells => simp [Row.nodesOfAll, Row.cells, ih]

theorem nodes_subset_nodesOfAll {expr : Expr} {exprs : List Expr} (member : expr ∈ exprs) :
    expr.nodes ⊆ nodesOfAll exprs :=
  fun _ inside => mem_nodesOfAll.mpr ⟨expr, member, inside⟩

theorem nodes_subset_rowNodes {row : Row} {rows : List Row} {cell : Expr}
    (rowMember : row ∈ rows) (cellMember : cell ∈ row.cells) :
    cell.nodes ⊆ Row.nodesOfAll rows :=
  fun _ inside => mem_rowNodes.mpr ⟨row, rowMember, nodes_subset_nodesOfAll cellMember inside⟩

end Expr

end MatrixScript
