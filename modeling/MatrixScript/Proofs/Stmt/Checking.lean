import MatrixScript.Checker
import MatrixScript.Proofs.Expr.Acceptance
import MatrixScript.Proofs.Scope
import MatrixScript.Proofs.Stmt.Nodes

/-!
# What the check of a statement does to the checker

`Checker.Extends` is what every statement does: it adds diagnostics, and declares names
in the innermost scope only.  What is checked in a scope of its own therefore leaves
the scopes around it as they were.

A statement is clean if no diagnostic is there after it.  From well-formed scopes a clean
statement leads to well-formed scopes.  `Stmt.Assignment` lists what a clean assignment
can be, and all that is said here about assignments follows from it.
-/

namespace MatrixScript

namespace Checker

/-- The checker has found no less, in the same loops and in the same scope. -/
structure Extends (before after : Checker) : Prop where
  scope : before.chain.Grows after.chain
  loopDepth : after.loopDepth = before.loopDepth
  diagnostics : before.diagnostics <+: after.diagnostics

namespace Extends

theorem refl (checker : Checker) : checker.Extends checker :=
  ⟨.refl _, rfl, List.prefix_rfl⟩

theorem trans {first second third : Checker} (start : first.Extends second)
    (rest : second.Extends third) : first.Extends third :=
  ⟨start.scope.trans rest.scope, rest.loopDepth.trans start.loopDepth,
    start.diagnostics.trans rest.diagnostics⟩

/-- If nothing is found after a step, nothing was found before it. -/
theorem clean {before after : Checker} (extends_ : before.Extends after)
    (nothing : after.diagnostics = []) : before.diagnostics = [] := by
  have shorter := extends_.diagnostics
  rw [nothing] at shorter
  exact List.prefix_nil.mp shorter

end Extends

variable {checker : Checker} {body : Checker → Checker}

theorem note_extends {α : Type} (checked : Checked α) :
    checker.Extends (checker.note checked) :=
  ⟨.refl _, rfl, List.prefix_append _ _⟩

theorem note_clean {α : Type} {checked : Checked α} :
    (checker.note checked).diagnostics = [] ↔
      checker.diagnostics = [] ∧ checked.diagnostics = [] := by
  rw [note, List.append_eq_nil_iff]

theorem inLoop_extends (extends_ : ∀ inner : Checker, inner.Extends (body inner)) :
    checker.Extends (checker.inLoop body) := by
  have inside := extends_ { checker with loopDepth := checker.loopDepth + 1 }
  refine ⟨inside.scope, ?_, inside.diagnostics⟩
  rw [inLoop, inside.loopDepth]
  exact Nat.add_sub_cancel _ _

/-- What is checked in a scope of its own leaves the scopes as they were. -/
theorem inScope_chain (extends_ : ∀ inner : Checker, inner.Extends (body inner)) :
    (checker.inScope body).chain = checker.chain :=
  (extends_ { checker with chain := checker.chain.enter }).scope.leave

theorem inScope_extends (extends_ : ∀ inner : Checker, inner.Extends (body inner)) :
    checker.Extends (checker.inScope body) := by
  have inside := extends_ { checker with chain := checker.chain.enter }
  refine ⟨?_, inside.loopDepth, inside.diagnostics⟩
  rw [inScope_chain extends_]
  exact .refl _

end Checker

/-! ## Assignments -/

theorem ScopeChain.Formed.put {dims : Dim → Prop} {chain : ScopeChain} {descriptor : Descriptor}
    (chainFormed : chain.Formed dims) (name : String) (formed : descriptor.Formed dims) :
    (chain.put name descriptor).Formed dims := by
  intro other found
  rw [get?_put]
  split
  · rintro ⟨⟩
    exact formed
  · exact chainFormed other found

namespace Stmt

variable {chain : ScopeChain} {span : Span} {target value : Expr} {op : AssignOp}

theorem checkPlain_grows : chain.Grows (checkPlain chain span target value).result := by
  unfold checkPlain
  split
  · exact chain.put_grows _ _
  · simp only [Checked.result_bind]
    split
    · exact .refl chain
    · exact .refl chain
  · exact .refl chain

theorem checkCompound_grows {arith : Arith} :
    chain.Grows (checkCompound chain span target arith value).result := by
  simp only [checkCompound, Checked.result_bind]
  split
  · exact .refl chain
  · split
    · exact .refl chain
    · split
      · exact .refl chain
      · unfold checkStore
        split
        · exact chain.put_grows _ _
        · exact .refl chain
        · exact .refl chain

theorem checkAssign_grows : chain.Grows (checkAssign chain span target op value).result := by
  cases op with
  | plain => exact checkPlain_grows
  | compound arith => exact checkCompound_grows

/-- What an assignment stores: its value, or what the old and the new value combine to. -/
inductive Stored (chain : ScopeChain) (target value : Expr) : AssignOp → Descriptor → Prop where
  | plain : Stored chain target value .plain (value.check chain).result
  | compound {arith : Arith} {result : Descriptor}
      (combination : Signature.Combination (.plain arith) (target.check chain).result
        (value.check chain).result result) :
      Stored chain target value (.compound arith) result

/-- A row of a matrix takes a vector, and an element takes a number. -/
structure SlotTakes (slot stored : Descriptor) : Prop where
  row : slot.ty = .vector → stored.ty = .vector
  element : slot.ty = .float → stored.ty.isNumeric = true

theorem checkSlot_clean {slot stored : Descriptor}
    (clean : (checkSlot span slot stored).diagnostics = []) : SlotTakes slot stored := by
  constructor
  · intro row
    rw [checkSlot, row] at clean
    by_cases vector : stored.ty = .vector
    · exact vector
    · simp [vector, Checked.complain] at clean
  · intro element
    rw [checkSlot, element] at clean
    by_cases numeric : stored.ty.isNumeric = true
    · exact numeric
    · simp [numeric, Checked.complain] at clean

/-- The targets of clean assignments, with what is stored and the scopes behind them. -/
inductive Assignment (chain : ScopeChain) (value : Expr) :
    Expr → AssignOp → ScopeChain → Prop where
  | declare {span : Span} {name : String}
      (proper : (value.check chain).result.Formed fun _ => True) :
      Assignment chain value (.var span name) .plain
        (chain.put name ((value.check chain).result.named name))
  | store {span : Span} {name : Located String} {coordinates : List Expr} {op : AssignOp}
      {stored : Descriptor} (slot : (Expr.reference span name coordinates).Accepted chain)
      (stores : Stored chain (.reference span name coordinates) value op stored)
      (takes : SlotTakes ((Expr.reference span name coordinates).check chain).result stored) :
      Assignment chain value (.reference span name coordinates) op chain
  | combine {span : Span} {name : String} {arith : Arith} {stored : Descriptor}
      (known : (Expr.var span name).Accepted chain)
      (stores : Stored chain (.var span name) value (.compound arith) stored)
      (proper : stored.Formed fun _ => True) :
      Assignment chain value (.var span name) (.compound arith)
        (chain.put name (stored.named name))

theorem checkPlain_clean (chainProper : chain.Formed fun _ => True)
    (clean : (checkPlain chain span target value).diagnostics = []) :
    value.Accepted chain ∧
      Assignment chain value target .plain (checkPlain chain span target value).result := by
  unfold checkPlain at clean ⊢
  split at clean
  · rename_i targetSpan name
    simp only [Checked.diagnostics_bind, List.append_eq_nil_iff] at clean
    exact ⟨clean.1, .declare (Expr.check_proper chainProper clean.1)⟩
  · rename_i targetSpan name coordinates
    simp only [Checked.diagnostics_bind, Checked.result_bind, List.append_eq_nil_iff] at clean ⊢
    rcases clean with ⟨slotClean, valueClean, storeClean⟩
    refine ⟨valueClean, ?_⟩
    simp only [(Expr.check_proper chainProper slotClean).isUndefined_eq,
      (Expr.check_proper chainProper valueClean).isUndefined_eq, Bool.or_self,
      Bool.false_eq_true, if_false, Checked.diagnostics_bind, List.append_eq_nil_iff]
      at storeClean ⊢
    exact .store slotClean .plain (checkSlot_clean storeClean.1)
  · simp [Checked.complain] at clean

theorem checkCompound_clean {arith : Arith} (chainProper : chain.Formed fun _ => True)
    (clean : (checkCompound chain span target arith value).diagnostics = []) :
    value.Accepted chain ∧
      Assignment chain value target (.compound arith)
        (checkCompound chain span target arith value).result := by
  simp only [checkCompound, Checked.diagnostics_bind, Checked.result_bind,
    List.append_eq_nil_iff] at clean ⊢
  rcases clean with ⟨targetClean, valueClean, storeClean⟩
  have oldProper := Expr.check_proper chainProper targetClean
  have newProper := Expr.check_proper chainProper valueClean
  refine ⟨valueClean, ?_⟩
  simp only [oldProper.isUndefined_eq, newProper.isUndefined_eq, Bool.or_self,
    Bool.false_eq_true, if_false] at storeClean ⊢
  split at storeClean
  · simp [Checked.complain] at storeClean
  · rename_i ty combined
    split at storeClean
    · simp [Checked.complain] at storeClean
    · rename_i shape shaped
      have combination := Signature.Combination.of_rule
        (.of_binary combined) oldProper newProper shaped
      cases target with
      | var targetSpan name =>
          exact .combine targetClean (.compound combination)
            (combination.formed oldProper newProper)
      | reference targetSpan name coordinates =>
          simp only [checkStore, Checked.diagnostics_bind, List.append_eq_nil_iff] at storeClean
          exact .store targetClean (.compound combination) (checkSlot_clean storeClean.1)
      | _ => simp [checkStore, Checked.complain] at storeClean

/-- What a clean assignment can be. -/
theorem checkAssign_clean (chainProper : chain.Formed fun _ => True)
    (clean : (checkAssign chain span target op value).diagnostics = []) :
    value.Accepted chain ∧
      Assignment chain value target op (checkAssign chain span target op value).result := by
  cases op with
  | plain => exact checkPlain_clean chainProper clean
  | compound arith => exact checkCompound_clean chainProper clean

theorem Assignment.formed {after : ScopeChain}
    (assignment : Assignment chain value target op after)
    (chainProper : chain.Formed fun _ => True) : after.Formed fun _ => True := by
  cases assignment with
  | declare proper => exact chainProper.put _ (proper.named _)
  | store => exact chainProper
  | combine known stores proper => exact chainProper.put _ (proper.named _)

/-- An assignment that does not declare a name makes it visible nowhere. -/
theorem Assignment.visible {after : ScopeChain}
    (assignment : Assignment chain value target op after) {name : String}
    (other : ∀ span, ¬ (target = .var span name ∧ op = .plain))
    (visible : (after.get? name).isSome) : (chain.get? name).isSome := by
  cases assignment with
  | declare proper =>
      rw [ScopeChain.get?_put] at visible
      split at visible
      · rename_i same
        subst same
        exact absurd ⟨rfl, rfl⟩ (other _)
      · exact visible
  | store => exact visible
  | combine known =>
      rw [ScopeChain.get?_put] at visible
      split at visible
      · rename_i same
        rw [same, Expr.checkVariable_clean known]
        rfl
      · exact visible

/-! ## Statements -/

theorem checkAll_extends {statements : List Stmt}
    (each : ∀ statement ∈ statements, ∀ checker : Checker,
      checker.Extends (statement.check checker))
    (checker : Checker) : checker.Extends (checkAll statements checker) := by
  induction statements generalizing checker with
  | nil => exact .refl checker
  | cons head tail ih =>
      rw [List.forall_mem_cons] at each
      exact (each.1 checker).trans (ih each.2 (head.check checker))

/-- The body of a for loop is checked with the counter declared. -/
def checkCounted (counter : String) (body : Stmt) (checker : Checker) : Checker :=
  body.check
    { checker with
      chain := checker.chain.put counter ((Descriptor.scalar .int).named counter) }

theorem checkCounted_extends {body : Stmt}
    (extends_ : ∀ checker : Checker, checker.Extends (body.check checker)) (counter : String)
    (checker : Checker) : checker.Extends (checkCounted counter body checker) := by
  have inside := extends_
    { checker with
      chain := checker.chain.put counter ((Descriptor.scalar .int).named counter) }
  exact ⟨(checker.chain.put_grows _ _).trans inside.scope, inside.loopDepth, inside.diagnostics⟩

/-- A statement adds diagnostics, and declares names in the innermost scope only. -/
theorem check_extends (statement : Stmt) (checker : Checker) :
    checker.Extends (statement.check checker) := by
  induction statement generalizing checker with
  | block span body each => exact Checker.inScope_extends (checkAll_extends each)
  | jump span kind =>
      rw [check]
      split
      · exact Checker.note_extends _
      · exact .refl checker
  | print span arguments => exact Checker.note_extends _
  | «return» span value =>
      cases value with
      | none => exact .refl checker
      | some expr => exact Checker.note_extends _
  | assign span target op value => exact ⟨checkAssign_grows, rfl, List.prefix_append _ _⟩
  | branch span condition thenBranch thenExtends =>
      exact (Checker.note_extends _).trans (thenExtends _)
  | alternative span condition thenBranch elseBranch thenExtends elseExtends =>
      exact ((Checker.note_extends _).trans (thenExtends _)).trans (elseExtends _)
  | whileLoop span condition body bodyExtends =>
      exact (Checker.note_extends _).trans (Checker.inLoop_extends bodyExtends)
  | forLoop span counter first last body bodyExtends =>
      have counted := checkCounted_extends bodyExtends counter.item
      exact ((Checker.note_extends _).trans (Checker.note_extends _)).trans
        (Checker.inLoop_extends fun looping => Checker.inScope_extends counted)

theorem inScope_check_chain (checker : Checker) (body : List Stmt) :
    (checker.inScope (checkAll body)).chain = checker.chain :=
  Checker.inScope_chain (checkAll_extends fun statement _ => check_extends statement)

theorem inScope_counted_chain (checker : Checker) (counter : String) (body : Stmt) :
    (checker.inScope (checkCounted counter body)).chain = checker.chain :=
  Checker.inScope_chain (checkCounted_extends body.check_extends counter)

/-- From well-formed scopes, a clean statement leads to well-formed scopes. -/
theorem check_proper (statement : Stmt) (checker : Checker)
    (chainProper : checker.chain.Formed fun _ => True)
    (clean : (statement.check checker).diagnostics = []) :
    (statement.check checker).chain.Formed fun _ => True := by
  induction statement generalizing checker with
  | block span body each =>
      rw [check, inScope_check_chain]
      exact chainProper
  | jump span kind =>
      rw [check]
      split
      · exact chainProper
      · exact chainProper
  | print span arguments => exact chainProper
  | «return» span value =>
      cases value with
      | none => exact chainProper
      | some expr => exact chainProper
  | assign span target op value =>
      have assignment := checkAssign_clean chainProper (Checker.note_clean.mp clean).2
      exact assignment.2.formed chainProper
  | branch span condition thenBranch thenProper => exact thenProper _ chainProper clean
  | alternative span condition thenBranch elseBranch thenProper elseProper =>
      have thenClean := (elseBranch.check_extends _).clean clean
      exact elseProper _ (thenProper _ chainProper thenClean) clean
  | whileLoop span condition body bodyProper => exact bodyProper _ chainProper clean
  | forLoop span counter first last body bodyProper =>
      show ((Checker.inScope _ (checkCounted counter.item body)).chain).Formed fun _ => True
      rw [inScope_counted_chain]
      exact chainProper

theorem checkAll_proper {statements : List Stmt} {checker : Checker}
    (chainProper : checker.chain.Formed fun _ => True)
    (clean : (checkAll statements checker).diagnostics = []) :
    (checkAll statements checker).chain.Formed fun _ => True := by
  induction statements generalizing checker with
  | nil => exact chainProper
  | cons head tail ih =>
      rw [checkAll] at clean ⊢
      have headClean : (head.check checker).diagnostics = [] :=
        (checkAll_extends (fun statement _ => statement.check_extends) _).clean clean
      exact ih (head.check_proper checker chainProper headClean) clean

/-- A clean statement that does not reach a plain assignment to a name leaves it as visible. -/
theorem check_visible {name : String} (statement : Stmt) (checker : Checker)
    (unreached : ¬ statement.Reaches name)
    (chainProper : checker.chain.Formed fun _ => True)
    (clean : (statement.check checker).diagnostics = [])
    (visible : ((statement.check checker).chain.get? name).isSome) :
    (checker.chain.get? name).isSome := by
  induction statement generalizing checker with
  | block span body each =>
      rw [check, inScope_check_chain] at visible
      exact visible
  | jump span kind =>
      rw [check] at visible
      split at visible
      · exact visible
      · exact visible
  | print span arguments => exact visible
  | «return» span value =>
      cases value with
      | none => exact visible
      | some expr => exact visible
  | assign span target op value =>
      have assignment := checkAssign_clean chainProper (Checker.note_clean.mp clean).2
      refine assignment.2.visible ?_ visible
      rintro targetSpan ⟨rfl, rfl⟩
      exact unreached (.assign span targetSpan value)
  | branch span condition thenBranch thenVisible =>
      exact thenVisible (checker.note _) (fun inside => unreached (.thenBranch inside))
        chainProper clean visible
  | alternative span condition thenBranch elseBranch thenVisible elseVisible =>
      rw [check] at clean visible
      have thenClean := (elseBranch.check_extends _).clean clean
      have thenProper := thenBranch.check_proper (checker.note _) chainProper thenClean
      have between := elseVisible _ (fun inside => unreached (.elseBranch inside))
        thenProper clean visible
      exact thenVisible (checker.note _) (fun inside => unreached (.thenBranch inside))
        chainProper thenClean between
  | whileLoop span condition body bodyVisible =>
      exact bodyVisible
        { checker.note (condition.check checker.chain) with loopDepth := checker.loopDepth + 1 }
        (fun inside => unreached (.body inside)) chainProper clean visible
  | forLoop span counter first last body bodyVisible =>
      change ((Checker.inScope _ (checkCounted counter.item body)).chain.get? name).isSome
        at visible
      rw [inScope_counted_chain] at visible
      exact visible

end Stmt

end MatrixScript
