import MatrixScript.Proofs.Checker
import MatrixScript.Proofs.Stmt.Sites

/-!
# Ranks of descriptors

The checker finds the type of an expression in one way and its shape in another.  The two
agree: a shape has as many dimensions as the values of the type.  This holds of `undefined`
too, so it is kept where the checker complains and goes on.

`Checker.Reachable` is what can become of a checker that is given programs and expressions
of any kind.  Every descriptor in its scopes and every descriptor it returns is ranked, and
so they are in the scopes that are open while it goes through a program.
-/

namespace MatrixScript

/-- The number of dimensions of the values of a type. -/
def Ty.rank : Ty → Nat
  | .int | .float | .string | .undefined => 0
  | .vector => 1
  | .matrix => 2

namespace Descriptor

/-- The shape has the rank of the type. -/
def Ranked (descriptor : Descriptor) : Prop :=
  descriptor.shape.length = descriptor.ty.rank

variable {descriptor : Descriptor}

theorem undefined_ranked : undefined.Ranked := rfl

theorem Formed.ranked {dims : Dim → Prop} (formed : descriptor.Formed dims) :
    descriptor.Ranked := by
  cases formed <;> rfl

/-- Of the ranked descriptors only those of type `undefined` describe no values. -/
theorem Ranked.formed (ranked : descriptor.Ranked) (defined : descriptor.isUndefined = false) :
    descriptor.Formed fun _ => True := by
  rcases descriptor with ⟨ty, shape, name⟩
  cases ty with
  | int =>
      cases List.length_eq_zero_iff.mp ranked
      exact .int name
  | float =>
      cases List.length_eq_zero_iff.mp ranked
      exact .float name
  | string =>
      cases List.length_eq_zero_iff.mp ranked
      exact .string name
  | vector =>
      rcases List.length_eq_one_iff.mp ranked with ⟨length, rfl⟩
      exact .vector name trivial
  | matrix =>
      rcases List.length_eq_two.mp ranked with ⟨rows, columns, rfl⟩
      exact .matrix name trivial trivial
  | undefined => cases defined

end Descriptor

/-- What the signature says of the type and what it says of the shape have one rank. -/
theorem Signature.result_ranked {op : BinaryOp} {left right : Descriptor} {ty : Ty}
    {shape : Shape} (leftRanked : left.Ranked) (rightRanked : right.Ranked)
    (defined : ¬ (left.isUndefined || right.isUndefined) = true)
    (accepted : binary op left.ty right.ty = some ty)
    (shaped : shape? op left right = some shape) : (Descriptor.of ty shape).Ranked := by
  rw [Bool.or_eq_true, not_or, Bool.not_eq_true, Bool.not_eq_true] at defined
  have leftFormed := leftRanked.formed defined.1
  have rightFormed := rightRanked.formed defined.2
  have combination := Combination.of_rule (.of_binary accepted) leftFormed rightFormed shaped
  exact (combination.formed leftFormed rightFormed).ranked

/-! ## Expressions -/

/-- Every descriptor in every scope is ranked. -/
def ScopeChain.Ranked (chain : ScopeChain) : Prop :=
  ∀ scope ∈ chain.scopes, ∀ entry ∈ scope.entries, entry.2.Ranked

namespace ScopeChain.Ranked

variable {chain : ScopeChain}

theorem root : ScopeChain.root.Ranked := by
  intro scope inScopes entry inEntries
  cases List.mem_singleton.mp inScopes
  cases inEntries

theorem get (ranked : chain.Ranked) {name : String} {descriptor : Descriptor}
    (found : chain.get? name = some descriptor) : descriptor.Ranked := by
  rcases List.exists_of_findSome?_eq_some found with ⟨scope, inScopes, here⟩
  exact ranked scope inScopes (name, descriptor) (Bindings.mem_of_get? here)

theorem enter (ranked : chain.Ranked) : chain.enter.Ranked := by
  intro scope inScopes entry inEntries
  rcases List.mem_cons.mp inScopes with rfl | outside
  · cases inEntries
  · exact ranked scope outside entry inEntries

theorem put (ranked : chain.Ranked) (name : String) {descriptor : Descriptor}
    (declared : descriptor.Ranked) : (chain.put name descriptor).Ranked := by
  intro scope inScopes entry inEntries
  rcases List.mem_cons.mp inScopes with rfl | outside
  · rcases Bindings.mem_insertEntry inEntries with rfl | older
    · exact declared
    · exact ranked chain.inner List.mem_cons_self entry older
  · exact ranked scope (List.mem_cons_of_mem _ outside) entry inEntries

end ScopeChain.Ranked

namespace Expr

open Descriptor

variable {chain : ScopeChain}

theorem checkVariable_ranked (ranked : chain.Ranked) (name : String) (span : Span) :
    (checkVariable chain name span).result.Ranked := by
  unfold checkVariable
  split
  · rename_i descriptor found
    exact ranked.get found
  · exact undefined_ranked

theorem checkSelection_ranked {container : Descriptor} {coordinates : List Expr}
    (formed : container.Formed fun _ => True)
    (few : coordinates.length ≤ container.shape.length) :
    (checkSelection container.shape coordinates).result.Ranked := by
  unfold checkSelection
  split
  · exact (selected_formed formed few).ranked
  · exact undefined_ranked

theorem checkConstructor_ranked (span : Span) (builtin : Builtin) (arguments : List Expr) :
    (checkConstructor span builtin arguments).result.Ranked := by
  unfold checkConstructor
  split <;> rfl

theorem checkBinary_ranked {span : Span} {op : BinaryOp} {left right : Descriptor}
    (leftRanked : left.Ranked) (rightRanked : right.Ranked) :
    (checkBinary span op left right).result.Ranked := by
  unfold checkBinary
  split
  · exact undefined_ranked
  · rename_i defined
    split
    · exact undefined_ranked
    · rename_i ty accepted
      split
      · exact undefined_ranked
      · rename_i shape shaped
        exact Signature.result_ranked leftRanked rightRanked defined accepted shaped

theorem checkComparison_ranked (span : Span) (op : Comparison) (left right : Descriptor) :
    (checkComparison span op left right).result.Ranked := by
  unfold checkComparison
  split
  · exact undefined_ranked
  · split
    · exact undefined_ranked
    · rename_i ty accepted
      rw [(Signature.comparison_eq_some accepted).1]
      rfl

theorem checkUnary_ranked {span : Span} {op : UnaryOp} {operand : Descriptor}
    (ranked : operand.Ranked) : (checkUnary span op operand).result.Ranked := by
  unfold checkUnary
  split
  · exact ranked
  · split
    · exact undefined_ranked
    · rename_i ty accepted
      rcases Signature.unary_eq_some accepted with ⟨rfl, _, rfl⟩ | ⟨rfl, matrix, rfl⟩
      · exact ranked
      · show operand.shape.reverse.length = 2
        rw [List.length_reverse, ranked, matrix]
        rfl

theorem checkRows_ranked (span : Span) (rows : List Row) :
    (checkRows span rows).result.Ranked := by
  simp only [checkRows]
  split <;> rfl

/-- In ranked scopes every expression has a ranked descriptor, accepted or not. -/
theorem check_ranked (ranked : chain.Ranked) (expr : Expr) :
    (expr.check chain).result.Ranked := by
  induction expr with
  | int span value => rfl
  | float span value => rfl
  | string span value => rfl
  | var span name => exact checkVariable_ranked ranked name span
  | vector span elements each => rfl
  | matrix span rows each => exact checkRows_ranked span rows
  | reference span name coordinates each =>
      have container := checkVariable_ranked ranked name.item name.span
      simp only [check, Checked.result_bind]
      split
      · exact undefined_ranked
      · rename_i defined
        split
        · exact undefined_ranked
        · rename_i few
          rw [Checked.result_bind]
          split
          · exact checkSelection_ranked (container.formed (Bool.not_eq_true _ ▸ defined))
              (Nat.not_lt.mp few)
          · exact undefined_ranked
  | call span builtin arguments each =>
      simp only [check, Checked.result_bind]
      split
      · exact checkConstructor_ranked span builtin arguments
      · exact undefined_ranked
  | binary span left op right leftRanked rightRanked =>
      exact checkBinary_ranked leftRanked rightRanked
  | compare span left op right leftRanked rightRanked =>
      exact checkComparison_ranked span op _ _
  | unary span op operand operandRanked => exact checkUnary_ranked operandRanked

end Expr

/-! ## Statements -/

namespace Stmt

variable {chain : ScopeChain} {span : Span} {target value : Expr}

theorem checkPlain_ranked (ranked : chain.Ranked) :
    (checkPlain chain span target value).result.Ranked := by
  unfold checkPlain
  split
  · exact ranked.put _ (Expr.check_ranked ranked value)
  · simp only [Checked.result_bind]
    split
    · exact ranked
    · exact ranked
  · exact ranked

theorem checkStore_ranked (ranked : chain.Ranked) {old new : Descriptor} (stored : new.Ranked) :
    (checkStore chain span target old new).result.Ranked := by
  unfold checkStore
  split
  · exact ranked.put _ stored
  · exact ranked
  · exact ranked

theorem checkCompound_ranked {arith : Arith} (ranked : chain.Ranked) :
    (checkCompound chain span target arith value).result.Ranked := by
  have old := Expr.check_ranked ranked target
  have new := Expr.check_ranked ranked value
  simp only [checkCompound, Checked.result_bind]
  split
  · exact ranked
  · rename_i defined
    split
    · exact ranked
    · rename_i ty accepted
      split
      · exact ranked
      · rename_i shape shaped
        exact checkStore_ranked ranked (Signature.result_ranked old new defined accepted shaped)

theorem checkAssign_ranked {op : AssignOp} (ranked : chain.Ranked) :
    (checkAssign chain span target op value).result.Ranked := by
  cases op with
  | plain => exact checkPlain_ranked ranked
  | compound arith => exact checkCompound_ranked ranked

/-- From ranked scopes every statement leads to ranked scopes, accepted or not. -/
theorem check_ranked (statement : Stmt) (checker : Checker) (ranked : checker.chain.Ranked) :
    (statement.check checker).chain.Ranked := by
  induction statement generalizing checker with
  | block span body each =>
      rw [check, inScope_check_chain]
      exact ranked
  | jump span kind =>
      rw [check]
      split
      · exact ranked
      · exact ranked
  | print span arguments => exact ranked
  | «return» span value =>
      cases value with
      | none => exact ranked
      | some expr => exact ranked
  | assign span target op value => exact checkAssign_ranked ranked
  | branch span condition thenBranch thenRanked => exact thenRanked _ ranked
  | alternative span condition thenBranch elseBranch thenRanked elseRanked =>
      exact elseRanked _ (thenRanked _ ranked)
  | whileLoop span condition body bodyRanked => exact bodyRanked _ ranked
  | forLoop span counter first last body bodyRanked =>
      show (Checker.inScope _ (checkCounted counter.item body)).chain.Ranked
      rw [inScope_counted_chain]
      exact ranked

theorem checkAll_ranked (statements : List Stmt) (checker : Checker)
    (ranked : checker.chain.Ranked) : (checkAll statements checker).chain.Ranked := by
  induction statements generalizing checker with
  | nil => exact ranked
  | cons head tail ih => exact ih _ (head.check_ranked checker ranked)

theorem sitesOfAll_ranked {statements : List Stmt}
    (each : ∀ statement ∈ statements, ∀ (declared : List String) (checker : Checker),
      checker.chain.Ranked → ∀ site ∈ statement.sites declared checker, site.chain.Ranked)
    {declared : List String} {checker : Checker} (ranked : checker.chain.Ranked) :
    ∀ site ∈ sitesOfAll statements declared checker, site.chain.Ranked := by
  induction statements generalizing declared checker with
  | nil =>
      intro site member
      cases member
  | cons head tail ih =>
      rw [List.forall_mem_cons] at each
      intro site member
      rcases List.mem_append.mp member with inHead | inTail
      · exact each.1 declared checker ranked site inHead
      · exact ih each.2 (head.check_ranked checker ranked) site inTail

/-- The checker comes to every statement with ranked scopes. -/
theorem sites_ranked (statement : Stmt) (declared : List String) (checker : Checker)
    (ranked : checker.chain.Ranked) :
    ∀ site ∈ statement.sites declared checker, site.chain.Ranked := by
  induction statement generalizing declared checker with
  | block span body each =>
      rw [sites, List.forall_mem_cons]
      exact ⟨ranked, sitesOfAll_ranked each ranked.enter⟩
  | jump span kind => exact List.forall_mem_singleton.mpr ranked
  | print span arguments => exact List.forall_mem_singleton.mpr ranked
  | «return» span value => exact List.forall_mem_singleton.mpr ranked
  | assign span target op value => exact List.forall_mem_singleton.mpr ranked
  | branch span condition thenBranch thenRanked =>
      rw [sites, List.forall_mem_cons]
      exact ⟨ranked, thenRanked declared _ ranked⟩
  | alternative span condition thenBranch elseBranch thenRanked elseRanked =>
      let tested := checker.note (condition.check checker.chain)
      rw [sites, List.forall_mem_cons]
      refine ⟨ranked, ?_⟩
      intro site member
      rcases List.mem_append.mp member with inThen | inElse
      · exact thenRanked declared tested ranked site inThen
      · exact elseRanked declared _ (thenBranch.check_ranked tested ranked) site inElse
  | whileLoop span condition body bodyRanked =>
      rw [sites, List.forall_mem_cons]
      exact ⟨ranked, bodyRanked declared _ ranked⟩
  | forLoop span counter first last body bodyRanked =>
      rw [sites, List.forall_mem_cons]
      exact ⟨ranked, bodyRanked _ _ (ranked.enter.put counter.item rfl)⟩

end Stmt

/-! ## Checkers -/

namespace Checker

/-- The checkers that come of a new one by checking programs and expressions of any kind. -/
inductive Reachable : Checker → Prop where
  | start : Reachable .start
  | program {checker : Checker} (before : Reachable checker) (program : Program) :
      Reachable (checker.checkProgram program).2
  | incremental {checker : Checker} (before : Reachable checker) (program : Program) :
      Reachable (checker.checkIncremental program).2
  | expr {checker : Checker} (before : Reachable checker) (expr : Expr) :
      Reachable (checker.checkExpr expr).2
  | taken {checker : Checker} (before : Reachable checker) :
      Reachable checker.takeDiagnostics.2

theorem Reachable.chain_ranked {checker : Checker} (reachable : checker.Reachable) :
    checker.chain.Ranked := by
  induction reachable with
  | start => exact .root
  | program before program ranked => exact Stmt.checkAll_ranked program.body _ ranked
  | @incremental checker before program ranked =>
      cases accepted : (checker.checkProgram program).1 with
      | true =>
          rw [checkIncremental_of_accepted accepted]
          exact Stmt.checkAll_ranked program.body checker ranked
      | false =>
          rw [checkIncremental_of_rejected accepted]
          exact ranked
  | expr before expr ranked => exact ranked
  | taken before ranked => exact ranked

/-- All descriptors in the scopes of the checker, and all that it returns, are ranked. -/
structure Ranked (checker : Checker) : Prop where
  stored : ∀ scope ∈ checker.chain.scopes, ∀ entry ∈ scope.entries, entry.2.Ranked
  returned : ∀ expr, (checker.checkExpr expr).1.Ranked

theorem ranked_of_chain {checker : Checker} (ranked : checker.chain.Ranked) : checker.Ranked :=
  ⟨ranked, Expr.check_ranked ranked⟩

/--
Whatever a checker was given, the descriptors it has stored and those it returns have shapes
of the rank of their types.  The same holds at every statement while it goes through a program.
-/
theorem Reachable.ranks_agree {checker : Checker} (reachable : checker.Reachable) :
    checker.Ranked ∧ ∀ program : Program,
      ∀ site ∈ Stmt.sitesOfAll program.body [] checker, site.checker.Ranked := by
  have ranked := reachable.chain_ranked
  refine ⟨ranked_of_chain ranked, ?_⟩
  intro program site member
  exact ranked_of_chain
    (Stmt.sitesOfAll_ranked (fun statement _ => statement.sites_ranked) ranked site member)

/-- The program `m = zeros(2, 3); v = m[0]; v *= 2; m -= v; u = q; m = m' * m;`. -/
def twiceFaulty : Program :=
  let m : Expr := .var default "m"
  let v : Expr := .var default "v"
  ⟨[.assign default m .plain (.call default .zeros [.int default 2, .int default 3]),
    .assign default v .plain (.reference default ⟨"m", default⟩ [.int default 0]),
    .assign default v (.compound .mul) (.int default 2),
    .assign default m (.compound .sub) v,
    .assign default (.var default "u") .plain (.var default "q"),
    .assign default m .plain
      (.binary default (.unary default .transpose m) (.plain .mul) m)]⟩

/-- After two complaints a name is undefined, and the others have the shapes of their types. -/
theorem ranks_agree_twiceFaulty :
    let checker := (Checker.start.checkProgram twiceFaulty).2
    checker.diagnostics.length = 2 ∧
      checker.lookup? "m" = some ⟨.matrix, [.known 3, .known 3], "m"⟩ ∧
      checker.lookup? "v" = some ⟨.vector, [.known 3], "v"⟩ ∧
      checker.lookup? "u" = some ⟨.undefined, [], "u"⟩ ∧
      checker.Ranked ∧ ∀ program : Program,
        ∀ site ∈ Stmt.sitesOfAll program.body [] checker, site.checker.Ranked :=
  ⟨by decide +kernel, by decide +kernel, by decide +kernel, by decide +kernel,
    Reachable.ranks_agree (.program .start twiceFaulty)⟩

end Checker

end MatrixScript
