import MatrixScript.Proofs.Stmt.Checking

/-!
# Balance of the checker

Whatever a program holds, and however much there is to complain about it, the checker
comes back to the scope and to the loops in which it began.  Rejecting a program puts
back a single scope; this is enough, because no statement declares a name outside the
scope in which it is checked.
-/

namespace MatrixScript

namespace Checker

theorem checkProgram_extends (checker : Checker) (program : Program) :
    checker.Extends (checker.checkProgram program).2 :=
  Stmt.checkAll_extends (fun statement _ => statement.check_extends) checker

/-- A statement with a scope of its own declares nothing outside it. -/
theorem check_chain_of_opensScope {statement : Stmt} (opens : statement.OpensScope)
    (checker : Checker) : (statement.check checker).chain = checker.chain := by
  cases statement with
  | block span body => exact Stmt.inScope_check_chain checker body
  | forLoop span counter first last body => exact Stmt.inScope_counted_chain _ counter.item body
  | _ => exact opens.elim

/-- A program is accepted just if it adds no diagnostic. -/
theorem checkProgram_iff (checker : Checker) (program : Program) :
    (checker.checkProgram program).1 = true ↔
      (checker.checkProgram program).2.diagnostics = checker.diagnostics := by
  have longer := (checker.checkProgram_extends program).diagnostics
  constructor
  · intro accepted
    have lengths := beq_iff_eq.mp accepted
    exact (longer.eq_of_length lengths.symm).symm
  · intro same
    exact beq_iff_eq.mpr (congrArg List.length same)

/-- What an accepted program leaves is what its check leaves. -/
theorem checkIncremental_of_accepted {checker : Checker} {program : Program}
    (accepted : (checker.checkProgram program).1 = true) :
    checker.checkIncremental program = (true, (checker.checkProgram program).2) := by
  unfold checkIncremental
  split
  · rename_i after checked
    rw [checked]
  · rename_i after checked
    rw [checked] at accepted
    cases accepted

/-- A rejected program leaves its diagnostics, and the scopes as they were. -/
theorem checkIncremental_of_rejected {checker : Checker} {program : Program}
    (rejected : (checker.checkProgram program).1 = false) :
    checker.checkIncremental program =
      (false, { (checker.checkProgram program).2 with chain := checker.chain }) := by
  have outer := (checker.checkProgram_extends program).scope.outer
  unfold checkIncremental
  split
  · rename_i after checked
    rw [checked] at rejected
    cases rejected
  · rename_i after checked
    rw [checked] at outer ⊢
    have restored : { after.chain with inner := checker.chain.inner } = checker.chain :=
      congrArg (ScopeChain.mk checker.chain.inner) outer
    rw [restored]

theorem checkIncremental_fst (checker : Checker) (program : Program) :
    (checker.checkIncremental program).1 = (checker.checkProgram program).1 := by
  cases checked : (checker.checkProgram program).1 with
  | true => rw [checkIncremental_of_accepted checked]
  | false => rw [checkIncremental_of_rejected checked]

theorem checkIncremental_extends (checker : Checker) (program : Program) :
    checker.Extends (checker.checkIncremental program).2 := by
  have checks := checker.checkProgram_extends program
  cases checked : (checker.checkProgram program).1 with
  | true =>
      rw [checkIncremental_of_accepted checked]
      exact checks
  | false =>
      rw [checkIncremental_of_rejected checked]
      exact ⟨.refl _, checks.loopDepth, checks.diagnostics⟩

theorem checkIncremental_diagnostics (checker : Checker) (program : Program) :
    (checker.checkIncremental program).2.diagnostics =
      (checker.checkProgram program).2.diagnostics := by
  cases checked : (checker.checkProgram program).1 with
  | true => rw [checkIncremental_of_accepted checked]
  | false => rw [checkIncremental_of_rejected checked]

/--
A program leaves the checker in its scope and at its loop depth, and only adds to the
diagnostics; a block or a for loop gives no name another meaning.  A program that is
taken back leaves every name its meaning.  It is taken back unless it added no
diagnostic, and otherwise it leaves what its check leaves.
-/
theorem checks_balanced (checker : Checker) (program : Program) :
    checker.Extends (checker.checkProgram program).2 ∧
      (∀ statement : Stmt, statement.OpensScope → ∀ name,
        (statement.check checker).lookup? name = checker.lookup? name) ∧
      checker.Extends (checker.checkIncremental program).2 ∧
      ((checker.checkIncremental program).1 = false → ∀ name,
        (checker.checkIncremental program).2.lookup? name = checker.lookup? name) ∧
      ((checker.checkIncremental program).1 = true ↔
        (checker.checkIncremental program).2.diagnostics = checker.diagnostics) ∧
      ((checker.checkIncremental program).1 = true →
        (checker.checkIncremental program).2 = (checker.checkProgram program).2) := by
  refine ⟨checker.checkProgram_extends program, ?_, checker.checkIncremental_extends program,
    ?_, ?_, ?_⟩
  · intro statement opens name
    exact congrArg (·.get? name) (check_chain_of_opensScope opens checker)
  · intro rejected name
    rw [checkIncremental_fst] at rejected
    rw [checkIncremental_of_rejected rejected]
    rfl
  · rw [checkIncremental_fst, checkIncremental_diagnostics]
    exact checker.checkProgram_iff program
  · intro accepted
    rw [checkIncremental_fst] at accepted
    rw [checkIncremental_of_accepted accepted]

/-- The program `x = 1; { y = x; x += 0.5; break; } x = "a";`. -/
def strayBreak : Program :=
  ⟨[.assign default (.var default "x") .plain (.int default 1),
    .block default
      [.assign default (.var default "y") .plain (.var default "x"),
      .assign default (.var default "x") (.compound .add) (.float default 0.5),
      .jump default .«break»],
    .assign default (.var default "x") .plain (.string default "a")]⟩

/-- A checker that has seen `x` and has a diagnostic left over takes the program back. -/
theorem checks_balanced_strayBreak :
    let checker : Checker :=
      ⟨ScopeChain.root.put "x" (.scalar .float), 0, [⟨.invalidTarget, default, none⟩]⟩
    (checker.checkIncremental strayBreak).1 = false ∧
      (checker.checkIncremental strayBreak).2.lookup? "x" = some (.scalar .float) ∧
      checker.diagnostics <+: (checker.checkIncremental strayBreak).2.diagnostics := by
  intro checker
  have rejected : (checker.checkIncremental strayBreak).1 = false := by
    decide +kernel
  have balanced := checks_balanced checker strayBreak
  refine ⟨rejected, ?_, balanced.2.2.1.diagnostics⟩
  rw [balanced.2.2.2.1 rejected]
  rfl

end Checker

end MatrixScript
