import MatrixScript.Stmt
import MatrixScript.Proofs.Expr.Nodes

/-!
# The nodes of a statement

A block holds statements in a list, and a branch may hold one more.  `Stmt.nested` is
induction over all of them; it tells a branch with an alternative from one without.

`Stmt.nodes` lists a statement together with every statement inside it.  Some nodes
declare a variable only under a condition: a branch or a while loop that reaches a
plain assignment to it with no block and no for loop, and so no scope, in between.

A statement assigns to a variable if one of its nodes is an assignment to the
variable or to a slot in it.

`Stmt.expressions` lists the nodes of the expressions that a statement has of its own.
-/

namespace MatrixScript

/-- Induction on statements, with one hypothesis for each statement directly inside. -/
@[elab_as_elim, induction_eliminator]
theorem Stmt.nested {motive : Stmt → Prop}
    (block : ∀ span body, (∀ statement ∈ body, motive statement) → motive (.block span body))
    (jump : ∀ span kind, motive (.jump span kind))
    (print : ∀ span arguments, motive (.print span arguments))
    («return» : ∀ span value, motive (.return span value))
    (assign : ∀ span target op value, motive (.assign span target op value))
    (branch : ∀ span condition thenBranch, motive thenBranch →
      motive (.branch span condition thenBranch none))
    (alternative : ∀ span condition thenBranch elseBranch, motive thenBranch →
      motive elseBranch → motive (.branch span condition thenBranch (some elseBranch)))
    (whileLoop : ∀ span condition body, motive body → motive (.whileLoop span condition body))
    (forLoop : ∀ span counter first last body, motive body →
      motive (.forLoop span counter first last body))
    (statement : Stmt) : motive statement := by
  refine @Stmt.rec motive (fun body => ∀ statement ∈ body, motive statement)
    (fun elseBranch => ∀ statement, elseBranch = some statement → motive statement)
    block jump print «return» assign ?_ whileLoop forLoop ?_ ?_ ?_ ?_ statement
  · intro span condition thenBranch elseBranch thenHolds elseHolds
    cases elseBranch with
    | none => exact branch span condition thenBranch thenHolds
    | some other =>
        exact alternative span condition thenBranch other thenHolds (elseHolds other rfl)
  · intro statement member
    simp at member
  · intro head tail headHolds tailHolds statement member
    rcases List.mem_cons.mp member with rfl | member
    · exact headHolds
    · exact tailHolds statement member
  · intro statement impossible
    cases impossible
  · intro other holds statement same
    cases same
    exact holds

mutual

/-- A statement and every statement inside it. -/
def Stmt.nodes : Stmt → List Stmt
  | .block span body => .block span body :: Stmt.nodesOfAll body
  | .jump span kind => [.jump span kind]
  | .print span arguments => [.print span arguments]
  | .return span value => [.return span value]
  | .assign span target op value => [.assign span target op value]
  | .branch span condition thenBranch none =>
      .branch span condition thenBranch none :: thenBranch.nodes
  | .branch span condition thenBranch (some elseBranch) =>
      .branch span condition thenBranch (some elseBranch) ::
        (thenBranch.nodes ++ elseBranch.nodes)
  | .whileLoop span condition body => .whileLoop span condition body :: body.nodes
  | .forLoop span counter first last body =>
      .forLoop span counter first last body :: body.nodes

/-- The nodes of several statements. -/
def Stmt.nodesOfAll : List Stmt → List Stmt
  | [] => []
  | head :: tail => head.nodes ++ Stmt.nodesOfAll tail

end

/-- Every statement of a program. -/
def Program.nodes (program : Program) : List Stmt :=
  Stmt.nodesOfAll program.body

namespace Stmt

@[simp]
theorem self_mem_nodes (statement : Stmt) : statement ∈ statement.nodes := by
  cases statement with
  | branch span condition thenBranch elseBranch => cases elseBranch <;> simp [nodes]
  | _ => simp [nodes]

theorem mem_nodesOfAll {node : Stmt} {statements : List Stmt} :
    node ∈ nodesOfAll statements ↔ ∃ statement ∈ statements, node ∈ statement.nodes := by
  induction statements with
  | nil => simp [nodesOfAll]
  | cons head tail ih => simp [nodesOfAll, ih]

theorem nodes_subset_nodesOfAll {statement : Stmt} {statements : List Stmt}
    (member : statement ∈ statements) : statement.nodes ⊆ nodesOfAll statements :=
  fun _ inside => mem_nodesOfAll.mpr ⟨statement, member, inside⟩

section Parts

variable {span : Span} {condition : Expr} {thenBranch body : Stmt}

theorem nodes_subset_block {statement : Stmt} {body : List Stmt} (member : statement ∈ body) :
    statement.nodes ⊆ (Stmt.block span body).nodes :=
  fun _ found => List.mem_cons_of_mem _ (nodes_subset_nodesOfAll member found)

theorem nodes_subset_branch :
    thenBranch.nodes ⊆ (Stmt.branch span condition thenBranch none).nodes :=
  fun _ found => List.mem_cons_of_mem _ found

theorem nodes_subset_then {elseBranch : Stmt} :
    thenBranch.nodes ⊆ (Stmt.branch span condition thenBranch (some elseBranch)).nodes :=
  fun _ found => List.mem_cons_of_mem _ (List.mem_append_left _ found)

theorem nodes_subset_else {elseBranch : Stmt} :
    elseBranch.nodes ⊆ (Stmt.branch span condition thenBranch (some elseBranch)).nodes :=
  fun _ found => List.mem_cons_of_mem _ (List.mem_append_right _ found)

theorem nodes_subset_while : body.nodes ⊆ (Stmt.whileLoop span condition body).nodes :=
  fun _ found => List.mem_cons_of_mem _ found

theorem nodes_subset_for {counter : Located String} {first last : Expr} :
    body.nodes ⊆ (Stmt.forLoop span counter first last body).nodes :=
  fun _ found => List.mem_cons_of_mem _ found

end Parts

/-- Branches and while loops alone lead to a plain assignment to the variable. -/
inductive Reaches (name : String) : Stmt → Prop where
  | assign (span targetSpan : Span) (value : Expr) :
      Reaches name (.assign span (.var targetSpan name) .plain value)
  | thenBranch {span : Span} {condition : Expr} {thenBranch : Stmt}
      {elseBranch : Option Stmt} (inside : Reaches name thenBranch) :
      Reaches name (.branch span condition thenBranch elseBranch)
  | elseBranch {span : Span} {condition : Expr} {thenBranch elseBranch : Stmt}
      (inside : Reaches name elseBranch) :
      Reaches name (.branch span condition thenBranch (some elseBranch))
  | body {span : Span} {condition : Expr} {body : Stmt} (inside : Reaches name body) :
      Reaches name (.whileLoop span condition body)

/-- A branch or a while loop that may or may not assign to the variable first. -/
def DeclaresConditionally (name : String) : Stmt → Prop
  | .branch _ _ thenBranch elseBranch =>
      thenBranch.Reaches name ∨ ∃ other, elseBranch = some other ∧ other.Reaches name
  | .whileLoop _ _ body => body.Reaches name
  | _ => False

end Stmt

/-- The statement has a scope and a frame of its own. -/
def Stmt.OpensScope : Stmt → Prop
  | .block _ _ | .forLoop _ _ _ _ _ => True
  | _ => False

/-- The variable that an assignment to the expression changes. -/
def Expr.targetName? : Expr → Option String
  | .var _ name => some name
  | .reference _ name _ => some name.item
  | _ => none

namespace Stmt

/-- The statement is an assignment to the variable or to a slot in it. -/
def IsAssignmentTo (name : String) : Stmt → Prop
  | .assign _ target _ _ => target.targetName? = some name
  | _ => False

/-- Some assignment inside the statement changes the variable. -/
def Assigns (name : String) (statement : Stmt) : Prop :=
  ∃ node ∈ statement.nodes, node.IsAssignmentTo name

/-- The expressions of a statement itself, without those of the statements inside it. -/
def exprs : Stmt → List Expr
  | .block _ _ | .jump _ _ | .return _ none => []
  | .print _ arguments => arguments
  | .return _ (some value) => [value]
  | .assign _ target _ value => [target, value]
  | .branch _ condition _ _ | .whileLoop _ condition _ => [condition]
  | .forLoop _ _ first last _ => [first, last]

/-- Every expression inside the expressions of a statement itself. -/
def expressions (statement : Stmt) : List Expr :=
  Expr.nodesOfAll statement.exprs

theorem Assigns.mono {name : String} {part whole : Stmt} (assigns : part.Assigns name)
    (inside : part.nodes ⊆ whole.nodes) : whole.Assigns name := by
  rcases assigns with ⟨node, found, changes⟩
  exact ⟨node, inside found, changes⟩

end Stmt

end MatrixScript
