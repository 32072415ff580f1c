import MatrixScript.Proofs.Expr.Soundness
import MatrixScript.Proofs.Stmt.Checking

/-!
# Where the checker meets the statements of a program

The checker goes through a program once, and so it meets every statement once.  A site
is a statement together with the state in which the checker comes to it.

`Stmt.sites` lists the sites of a statement in the order of its nodes.  If the whole
statement is clean, each of its sites has well-formed scopes and is clean on its own.
-/

namespace MatrixScript

/--
A statement as the checker meets it.  The variables in `declared` are those that the block
around it is sure to have declared by then.
-/
structure Site where
  checker : Checker
  declared : List String
  statement : Stmt

namespace Site

/-- The scopes at a site. -/
abbrev chain (site : Site) : ScopeChain := site.checker.chain

/-- The scopes behind a site. -/
def after (site : Site) : ScopeChain := (site.statement.check site.checker).chain

/-- The scopes are well-formed, and nothing is wrong with the statement. -/
structure Clean (site : Site) : Prop where
  proper : site.chain.Formed fun _ => True
  nothing : (site.statement.check site.checker).diagnostics = []

/-- The elements of literals in the statement itself are checked to be numbers. -/
def Numeric (site : Site) : Prop :=
  ∀ node ∈ site.statement.expressions, node.Numeric site.chain

instance (site : Site) : Decidable site.Numeric :=
  inferInstanceAs (Decidable (∀ node ∈ site.statement.expressions, _))

end Site

/-- The variables that a statement is sure to declare in the block around it. -/
def Stmt.declares : Stmt → List String
  | .assign _ (.var _ name) .plain _ => [name]
  | _ => []

namespace Checker

/-- The checker as it goes into the body of a while loop. -/
def insideWhile (checker : Checker) (condition : Expr) : Checker :=
  { checker.note (condition.check checker.chain) with loopDepth := checker.loopDepth + 1 }

/-- The checker as it goes into the body of a for loop, where the counter is declared. -/
def insideFor (checker : Checker) (counter : String) (first last : Expr) : Checker :=
  { (checker.note (Stmt.checkBound checker.chain first)).note
      (Stmt.checkBound checker.chain last) with
    loopDepth := checker.loopDepth + 1
    chain := checker.chain.enter.put counter ((Descriptor.scalar .int).named counter) }

end Checker

mutual

/-- The sites of a statement and of every statement inside it. -/
def Stmt.sites : Stmt → List String → Checker → List Site
  | .block span body, declared, checker =>
      ⟨checker, declared, .block span body⟩ ::
        Stmt.sitesOfAll body [] { checker with chain := checker.chain.enter }
  | .jump span kind, declared, checker => [⟨checker, declared, .jump span kind⟩]
  | .print span arguments, declared, checker => [⟨checker, declared, .print span arguments⟩]
  | .return span value, declared, checker => [⟨checker, declared, .return span value⟩]
  | .assign span target op value, declared, checker =>
      [⟨checker, declared, .assign span target op value⟩]
  | .branch span condition thenBranch none, declared, checker =>
      ⟨checker, declared, .branch span condition thenBranch none⟩ ::
        thenBranch.sites declared (checker.note (condition.check checker.chain))
  | .branch span condition thenBranch (some elseBranch), declared, checker =>
      let tested := checker.note (condition.check checker.chain)
      ⟨checker, declared, .branch span condition thenBranch (some elseBranch)⟩ ::
        (thenBranch.sites declared tested ++
          elseBranch.sites declared (thenBranch.check tested))
  | .whileLoop span condition body, declared, checker =>
      ⟨checker, declared, .whileLoop span condition body⟩ ::
        body.sites declared (checker.insideWhile condition)
  | .forLoop span counter first last body, declared, checker =>
      ⟨checker, declared, .forLoop span counter first last body⟩ ::
        body.sites [counter.item] (checker.insideFor counter.item first last)

/-- The sites of statements that are checked in order. -/
def Stmt.sitesOfAll : List Stmt → List String → Checker → List Site
  | [], _, _ => []
  | head :: tail, declared, checker =>
      head.sites declared checker ++
        Stmt.sitesOfAll tail (head.declares ++ declared) (head.check checker)

end

/-- Every site of a program that is checked on its own. -/
def Program.sites (program : Program) : List Site :=
  Stmt.sitesOfAll program.body [] .start

namespace Stmt

theorem sites_head (statement : Stmt) (declared : List String) (checker : Checker) :
    ⟨checker, declared, statement⟩ ∈ statement.sites declared checker := by
  cases statement with
  | branch span condition thenBranch elseBranch => cases elseBranch <;> simp [sites]
  | _ => simp [sites]

/-! ## Sites and nodes -/

theorem sitesOfAll_statements {statements : List Stmt}
    (each : ∀ statement ∈ statements, ∀ declared checker,
      (statement.sites declared checker).map Site.statement = statement.nodes)
    (declared : List String) (checker : Checker) :
    (sitesOfAll statements declared checker).map Site.statement = nodesOfAll statements := by
  induction statements generalizing declared checker with
  | nil => rfl
  | cons head tail ih =>
      rw [List.forall_mem_cons] at each
      rw [sitesOfAll, List.map_append, each.1, ih each.2, nodesOfAll]

/-- The checker meets every node once. -/
theorem sites_statements (statement : Stmt) (declared : List String) (checker : Checker) :
    (statement.sites declared checker).map Site.statement = statement.nodes := by
  induction statement generalizing declared checker with
  | block span body each =>
      rw [sites, List.map_cons, sitesOfAll_statements each, nodes]
  | jump span kind => rfl
  | print span arguments => rfl
  | «return» span value => rfl
  | assign span target op value => rfl
  | branch span condition thenBranch thenSites =>
      rw [sites, List.map_cons, thenSites, nodes]
  | alternative span condition thenBranch elseBranch thenSites elseSites =>
      rw [sites, List.map_cons, List.map_append, thenSites, elseSites, nodes]
  | whileLoop span condition body bodySites => rw [sites, List.map_cons, bodySites, nodes]
  | forLoop span counter first last body bodySites =>
      rw [sites, List.map_cons, bodySites, nodes]

/-! ## Clean sites -/

theorem sitesOfAll_clean {statements : List Stmt}
    (each : ∀ statement ∈ statements, ∀ (declared : List String) (checker : Checker),
      checker.chain.Formed (fun _ => True) → (statement.check checker).diagnostics = [] →
      ∀ site ∈ statement.sites declared checker, site.Clean)
    {declared : List String} {checker : Checker}
    (proper : checker.chain.Formed fun _ => True)
    (clean : (checkAll statements checker).diagnostics = []) :
    ∀ site ∈ sitesOfAll statements declared checker, site.Clean := by
  induction statements generalizing declared checker with
  | nil =>
      intro site member
      cases member
  | cons head tail ih =>
      rw [List.forall_mem_cons] at each
      rw [checkAll] at clean
      have headClean : (head.check checker).diagnostics = [] :=
        (checkAll_extends (fun statement _ => statement.check_extends) _).clean clean
      intro site member
      rw [sitesOfAll, List.mem_append] at member
      rcases member with inHead | inTail
      · exact each.1 declared checker proper headClean site inHead
      · exact ih each.2 (head.check_proper checker proper headClean) clean site inTail

/-- Every site of a clean statement is clean. -/
theorem sites_clean (statement : Stmt) (declared : List String) (checker : Checker)
    (proper : checker.chain.Formed fun _ => True)
    (clean : (statement.check checker).diagnostics = []) :
    ∀ site ∈ statement.sites declared checker, site.Clean := by
  induction statement generalizing declared checker with
  | block span body each =>
      rw [sites, List.forall_mem_cons]
      refine ⟨⟨proper, clean⟩, ?_⟩
      have entered : checker.chain.enter.Formed fun _ => True := proper
      exact sitesOfAll_clean each entered clean
  | jump span kind => exact List.forall_mem_singleton.mpr ⟨proper, clean⟩
  | print span arguments => exact List.forall_mem_singleton.mpr ⟨proper, clean⟩
  | «return» span value => exact List.forall_mem_singleton.mpr ⟨proper, clean⟩
  | assign span target op value => exact List.forall_mem_singleton.mpr ⟨proper, clean⟩
  | branch span condition thenBranch thenClean =>
      rw [sites, List.forall_mem_cons]
      refine ⟨⟨proper, clean⟩, ?_⟩
      exact thenClean declared _ proper clean
  | alternative span condition thenBranch elseBranch thenClean elseClean =>
      let tested := checker.note (condition.check checker.chain)
      have between : (thenBranch.check tested).diagnostics = [] :=
        (elseBranch.check_extends _).clean clean
      have betweenProper := thenBranch.check_proper tested proper between
      rw [sites, List.forall_mem_cons]
      refine ⟨⟨proper, clean⟩, ?_⟩
      intro site member
      rcases List.mem_append.mp member with inThen | inElse
      · exact thenClean declared tested proper between site inThen
      · exact elseClean declared _ betweenProper clean site inElse
  | whileLoop span condition body bodyClean =>
      rw [sites, List.forall_mem_cons]
      refine ⟨⟨proper, clean⟩, ?_⟩
      exact bodyClean declared _ proper clean
  | forLoop span counter first last body bodyClean =>
      have entered : checker.chain.enter.Formed fun _ => True := proper
      rw [sites, List.forall_mem_cons]
      refine ⟨⟨proper, clean⟩, ?_⟩
      exact bodyClean _ _ (entered.put counter.item (.int _)) clean

end Stmt

namespace Program

theorem sites_statements (program : Program) :
    program.sites.map Site.statement = program.nodes :=
  Stmt.sitesOfAll_statements (fun statement _ => statement.sites_statements) [] .start

theorem statement_mem_nodes {program : Program} {site : Site} (member : site ∈ program.sites) :
    site.statement ∈ program.nodes := by
  rw [← program.sites_statements]
  exact List.mem_map_of_mem member

theorem sites_clean {program : Program} (accepted : program.check = []) :
    ∀ site ∈ program.sites, site.Clean := by
  have proper : Checker.start.chain.Formed fun _ => True := by
    intro name descriptor found
    cases found
  exact Stmt.sitesOfAll_clean (fun statement _ => statement.sites_clean) proper accepted

end Program

end MatrixScript
