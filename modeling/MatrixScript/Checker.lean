import MatrixScript.Stmt
import MatrixScript.Expr.Typing

/-!
# The checker

The checker goes through a program once.  It keeps the scopes at the place it has
reached, the number of loops around that place, and the diagnostics found.

`Checker.checkProgram` goes through a program, and `Checker.checkIncremental` also
takes back what a faulty program declared.
-/

namespace MatrixScript

/-- The state of the checker. -/
structure Checker where
  chain : ScopeChain
  loopDepth : Nat
  diagnostics : List Diagnostic

namespace Checker

/-- The checker before any program. -/
def start : Checker := ⟨.root, 0, []⟩

/-- Keep the diagnostics of a check. -/
def note {α : Type} (checker : Checker) (checked : Checked α) : Checker :=
  { checker with diagnostics := checker.diagnostics ++ checked.diagnostics }

/-- Keep the diagnostics and the scopes of a check. -/
def advance (checker : Checker) (checked : Checked ScopeChain) : Checker :=
  { checker.note checked with chain := checked.result }

/-- Check something inside a new scope. -/
def inScope (checker : Checker) (body : Checker → Checker) : Checker :=
  let after := body { checker with chain := checker.chain.enter }
  { after with chain := after.chain.leave }

/-- Check something inside a loop. -/
def inLoop (checker : Checker) (body : Checker → Checker) : Checker :=
  let after := body { checker with loopDepth := checker.loopDepth + 1 }
  { after with loopDepth := after.loopDepth - 1 }

end Checker

namespace Stmt

open Checked

/-- A row of a matrix takes a vector of its length, and an element takes a number. -/
def checkSlot (span : Span) (slot value : Descriptor) : Checked Unit :=
  match slot.ty with
  | .vector =>
      if value.ty ≠ .vector then complain (.sliceType value.ty) span
      else if !slot.shape.compatible value.shape then
        complain (.sliceShape value.shape slot.shape) span
      else pure ()
  | .float => if value.ty.isNumeric then pure () else complain (.elementType value.ty) span
  | _ => pure ()

/-- The scopes after a plain assignment; the first assignment to a name declares it. -/
def checkPlain (chain : ScopeChain) (span : Span) (target value : Expr) :
    Checked ScopeChain :=
  match target with
  | .var _ name => do
      let new ← value.check chain
      pure (chain.put name ((Descriptor.of new.ty new.shape).named name))
  | .reference _ _ _ => do
      let slot ← target.check chain
      let new ← value.check chain
      if slot.isUndefined || new.isUndefined then pure chain
      else do
        checkSlot span slot new
        pure chain
  | _ => do
      let _ ← value.check chain
      complain .invalidTarget target.span
      pure chain

/-- The scopes after an assignment that stores a combined value. -/
def checkStore (chain : ScopeChain) (span : Span) (target : Expr) (old new : Descriptor) :
    Checked ScopeChain :=
  match target with
  | .var _ name => pure (chain.put name (new.named name))
  | .reference _ _ _ => do
      checkSlot span old new
      pure chain
  | _ => do
      complain .invalidTarget target.span
      pure chain

/-- The scopes after a compound assignment. -/
def checkCompound (chain : ScopeChain) (span : Span) (target : Expr) (arith : Arith)
    (value : Expr) : Checked ScopeChain := do
  let old ← target.check chain
  let new ← value.check chain
  if old.isUndefined || new.isUndefined then pure chain
  else
    match Signature.binary (.plain arith) old.ty new.ty with
    | none => do
        complain (.cannotAssign (.compound arith) new.ty old.ty) span
        pure chain
    | some ty =>
        match Signature.shape? (.plain arith) old new with
        | none => do
            complain (.shapeMismatch old.shape new.shape) span
            pure chain
        | some shape => checkStore chain span target old (.of ty shape)

/-- The scopes after an assignment. -/
def checkAssign (chain : ScopeChain) (span : Span) (target : Expr) (op : AssignOp)
    (value : Expr) : Checked ScopeChain :=
  match op with
  | .plain => checkPlain chain span target value
  | .compound arith => checkCompound chain span target arith value

/-- A bound of a for loop is an integer. -/
def checkBound (chain : ScopeChain) (bound : Expr) : Checked Unit := do
  let descriptor ← bound.check chain
  if descriptor.isUndefined || descriptor.ty = .int then pure ()
  else complain (.rangeBound descriptor.ty) bound.span

mutual

/-- Check a statement. -/
def check : Stmt → Checker → Checker
  | .block _ body, checker => checker.inScope (checkAll body)
  | .jump span kind, checker =>
      if checker.loopDepth = 0 then checker.note (complain (.jumpOutsideLoop kind) span)
      else checker
  | .print _ arguments, checker => checker.note (Expr.checkAll checker.chain arguments)
  | .return _ none, checker => checker
  | .return _ (some value), checker => checker.note (value.check checker.chain)
  | .assign span target op value, checker =>
      checker.advance (checkAssign checker.chain span target op value)
  | .branch _ condition thenBranch none, checker =>
      check thenBranch (checker.note (condition.check checker.chain))
  | .branch _ condition thenBranch (some elseBranch), checker =>
      check elseBranch (check thenBranch (checker.note (condition.check checker.chain)))
  | .whileLoop _ condition body, checker =>
      (checker.note (condition.check checker.chain)).inLoop (check body)
  | .forLoop _ counter first last body, checker =>
      let bounded :=
        (checker.note (checkBound checker.chain first)).note (checkBound checker.chain last)
      bounded.inLoop fun looping =>
        looping.inScope fun inner =>
          check body
            { inner with
              chain := inner.chain.put counter.item
                ((Descriptor.scalar .int).named counter.item) }

/-- Check statements in order. -/
def checkAll : List Stmt → Checker → Checker
  | [], checker => checker
  | head :: tail, checker => checkAll tail (check head checker)

end

end Stmt

namespace Checker

/-- Some diagnostics have not been taken yet. -/
def hasErrors (checker : Checker) : Bool :=
  !checker.diagnostics.isEmpty

/-- What a name means at the place the checker has reached. -/
def lookup? (checker : Checker) (name : String) : Option Descriptor :=
  checker.chain.get? name

/-- The descriptor of an expression; its diagnostics are kept. -/
def checkExpr (checker : Checker) (expr : Expr) : Descriptor × Checker :=
  let checked := expr.check checker.chain
  (checked.result, checker.note checked)

/-- Go through a program; yields whether it added no diagnostic. -/
def checkProgram (checker : Checker) (program : Program) : Bool × Checker :=
  let after := Stmt.checkAll program.body checker
  (after.diagnostics.length == checker.diagnostics.length, after)

/-- Go through a program, and put its scope back as it was if it added a diagnostic. -/
def checkIncremental (checker : Checker) (program : Program) : Bool × Checker :=
  match checker.checkProgram program with
  | (true, after) => (true, after)
  | (false, after) =>
      (false, { after with chain := { after.chain with inner := checker.chain.inner } })

/-- Hand out the diagnostics and keep none. -/
def takeDiagnostics (checker : Checker) : List Diagnostic × Checker :=
  (checker.diagnostics, { checker with diagnostics := [] })

end Checker

/-- The diagnostics of a program on its own. -/
def Program.check (program : Program) : List Diagnostic :=
  (Checker.start.checkProgram program).2.diagnostics

end MatrixScript
