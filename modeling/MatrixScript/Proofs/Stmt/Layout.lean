import MatrixScript.Checker
import MatrixScript.Proofs.Stmt.Lines
import MatrixScript.Stmt.Parser
import MatrixScript.Proofs.Expr.Layout
import MatrixScript.Proofs.Stmt.Grammar

/-!
# The layout of programs

Blanks, line breaks and comments between the tokens of a text change the spans of the
tokens and nothing else.  They do not change what the text means: whether it is a
program and which one up to spans, what the checker finds, and how a run ends.

Reading, checking and running each get along with taking the spans away.  A bare stream
is read as the bare program, and a bare program is checked and run as the program is,
but for the spans of diagnostics and the lines of errors.
-/

namespace MatrixScript

open Reader

/-! ## Reading -/

namespace Stmt

variable {expr : Reader Expr} {statement : Reader Stmt}

/-- The reader makes a bare statement of a bare stream. -/
abbrev BlindTo (reader onBare : Reader Stmt) : Prop :=
  Blind bare reader onBare

theorem span_bare (statement : Stmt) : statement.bare.span = default := by
  induction statement <;> rfl

theorem assignment_blind (blind : Expr.BlindTo expr expr) (fuel : Nat) :
    BlindTo (assignment expr fuel) (assignment expr fuel) := by
  refine Blind.bind (Expr.variableOrReference_blind blind fuel) fun target => ?_
  refine .bindSymbol? (fun op => ?_) (.unexpected _)
  refine Blind.bind blind fun value => ?_
  exact .pure (by simp [bare, Expr.span_bare])

theorem returnFrom_blind (blind : Expr.BlindTo expr expr) (start : Span) :
    BlindTo (returnFrom expr start) (returnFrom expr default) := by
  refine .bindPeek? fun token => ?_
  split
  · exact .pure rfl
  · refine Blind.bind blind fun value => ?_
    exact .pure (by simp [bare, Expr.span_bare])

theorem printFrom_blind (blind : Expr.BlindTo expr expr) (fuel : Nat) (start : Span) :
    BlindTo (printFrom expr fuel start) (printFrom expr fuel default) := by
  refine ((Blind.items blind fuel).tracked start).bind ?_
  rintro ⟨arguments, last⟩
  exact .pure (by simp only [Span.merge_self, bare, Expr.bareAll_eq_map])

theorem simple_blind (blind : Expr.BlindTo expr expr) (fuel : Nat) :
    BlindTo (simple expr fuel) (simple expr fuel) := by
  intro tokens
  cases tokens with
  | nil => rfl
  | cons token rest =>
      rcases token with ⟨item, span⟩
      cases item with
      | identifier name => exact assignment_blind blind fuel (⟨_, span⟩ :: rest)
      | keyword word =>
          cases word with
          | «return» => exact returnFrom_blind blind span rest
          | print => exact printFrom_blind blind fuel span rest
          | _ => rfl
      | _ => rfl

theorem terminated_blind (blind : Expr.BlindTo expr expr) (fuel : Nat) :
    BlindTo (terminated expr fuel) (terminated expr fuel) := by
  refine Blind.bind (simple_blind blind fuel) fun result => ?_
  exact (Blind.expect _).bind fun _ => .pure rfl

theorem condition_blind (blind : Expr.BlindTo expr expr) :
    Expr.BlindTo (condition expr) (condition expr) := by
  refine (Blind.expect _).bind fun _ => ?_
  refine Blind.bind blind fun test => ?_
  exact (Blind.expect _).bind fun _ => .pure rfl

theorem blockBody_blind (blind : BlindTo statement statement) (fuel : Nat) :
    Blind (Prod.map (List.map bare) fun _ => default) (blockBody statement fuel)
      (blockBody statement fuel) := by
  induction fuel with
  | zero => exact .unexpected _
  | succ fuel ih =>
      refine .bindAccept? (fun _ => .pure rfl) ?_
      refine .bindPeek? fun token => ?_
      cases token with
      | none => exact .unexpected _
      | some token =>
          refine Blind.bind blind fun head => ?_
          exact ih.bind fun result => .pure rfl

theorem blockFrom_blind (blind : BlindTo statement statement) (fuel : Nat) (start : Span) :
    BlindTo (blockFrom statement fuel start) (blockFrom statement fuel default) := by
  refine (blockBody_blind blind fuel).bind fun result => ?_
  exact .pure (by simp [bare, bareAll_eq_map])

theorem branchFrom_blind (exprs : Expr.BlindTo expr expr) (blind : BlindTo statement statement)
    (start : Span) :
    BlindTo (branchFrom expr statement start) (branchFrom expr statement default) := by
  refine Blind.bind (condition_blind exprs) fun test => ?_
  refine Blind.bind blind fun thenBranch => ?_
  refine .bindAccept? (fun _ => ?_) (.pure (by simp [bare, span_bare]))
  refine Blind.bind blind fun elseBranch => ?_
  exact .pure (by simp [bare, span_bare])

theorem whileFrom_blind (exprs : Expr.BlindTo expr expr) (blind : BlindTo statement statement)
    (start : Span) :
    BlindTo (whileFrom expr statement start) (whileFrom expr statement default) := by
  refine Blind.bind (condition_blind exprs) fun test => ?_
  refine Blind.bind blind fun body => ?_
  exact .pure (by simp [bare, span_bare])

theorem forFrom_blind (exprs : Expr.BlindTo expr expr) (blind : BlindTo statement statement)
    (start : Span) :
    BlindTo (forFrom expr statement start) (forFrom expr statement default) := by
  refine Blind.identifier.bind fun counter => ?_
  refine (Blind.expect _).bind fun _ => ?_
  refine Blind.bind exprs fun first => ?_
  refine (Blind.expect _).bind fun _ => ?_
  refine Blind.bind exprs fun last => ?_
  refine Blind.bind blind fun body => ?_
  exact .pure (by simp [bare, span_bare, Located.bare])

/-- The reader of statements takes no notice of spans. -/
theorem reader_blind (fuel : Nat) : BlindTo (reader fuel) (reader fuel) := by
  induction fuel with
  | zero => exact .unexpected _
  | succ fuel ih =>
      have exprs := Expr.reader_blind fuel
      have simple := terminated_blind (Expr.reader_blind (fuel + 1)) fuel
      intro tokens
      cases tokens with
      | nil => exact simple []
      | cons token rest =>
          rcases token with ⟨item, span⟩
          cases item with
          | symbol mark =>
              cases mark with
              | openBrace => exact blockFrom_blind ih fuel span rest
              | _ => exact simple (⟨_, span⟩ :: rest)
          | keyword word =>
              cases word with
              | «if» => exact branchFrom_blind exprs ih span rest
              | «while» => exact whileFrom_blind exprs ih span rest
              | «for» => exact forFrom_blind exprs ih span rest
              | _ => exact simple (⟨_, span⟩ :: rest)
          | _ => exact simple (⟨_, span⟩ :: rest)

end Stmt

namespace Program

theorem statements_bare {statement : Reader Stmt} (blind : Stmt.BlindTo statement statement)
    (fuel : Nat) (tokens : TokenStream) :
    statements statement fuel tokens.bare =
      ((statements statement fuel tokens).map Stmt.bareAll).mapError Rejection.bare := by
  induction fuel generalizing tokens with
  | zero => cases tokens <;> rfl
  | succ fuel ih =>
      cases tokens with
      | nil => rfl
      | cons token rest =>
          have read := blind (token :: rest)
          rw [TokenStream.bare, List.map_cons] at read ⊢
          simp only [statements, read]
          cases statement (token :: rest) with
          | error rejection => rfl
          | ok pair =>
              simp only [bareOutcome, ih]
              cases statements statement fuel pair.2 <;> rfl

/-- A bare stream is read as the bare program, or rejected with the same message. -/
theorem ofTokens_bare (tokens : TokenStream) :
    ofTokens tokens.bare = ((ofTokens tokens).map bare).mapError Rejection.bare := by
  have length : tokens.bare.length = tokens.length := List.length_map ..
  rw [ofTokens, ofTokens, length, statements_bare (Stmt.reader_blind _)]
  cases statements (Stmt.reader (tokens.length + 1)) tokens.length tokens <;> rfl

end Program

/-! ## Checking -/

namespace Checker

/-- The same checker, with diagnostics that have no spans. -/
def bare (checker : Checker) : Checker :=
  { checker with diagnostics := checker.diagnostics.map Diagnostic.bare }

theorem note_bare {α : Type} (checker : Checker) (checked : Checked α) :
    checker.bare.note checked.bare = (checker.note checked).bare :=
  congrArg (Checker.mk _ _) List.map_append.symm

theorem advance_bare (checker : Checker) (checked : Checked ScopeChain) :
    checker.bare.advance checked.bare = (checker.advance checked).bare :=
  congrArg (Checker.mk _ _) List.map_append.symm

variable {body bodyOfBare : Checker → Checker}

theorem inScope_bare (same : ∀ inner, bodyOfBare inner.bare = (body inner).bare)
    (checker : Checker) : checker.bare.inScope bodyOfBare = (checker.inScope body).bare := by
  have inside := same { checker with chain := checker.chain.enter }
  exact congrArg (fun after : Checker => { after with chain := after.chain.leave }) inside

theorem inLoop_bare (same : ∀ inner, bodyOfBare inner.bare = (body inner).bare)
    (checker : Checker) : checker.bare.inLoop bodyOfBare = (checker.inLoop body).bare := by
  have inside := same { checker with loopDepth := checker.loopDepth + 1 }
  exact congrArg (fun after : Checker => { after with loopDepth := after.loopDepth - 1 }) inside

end Checker

namespace Stmt

open Checked

variable {chain : ScopeChain}

theorem checkSlot_bare (span : Span) (slot value : Descriptor) :
    checkSlot default slot value = (checkSlot span slot value).bare := by
  unfold checkSlot
  split
  · simp only [bare_ite, bare_complain, bare_pure]
  · simp only [bare_ite, bare_complain, bare_pure]
  · rfl

theorem checkPlain_bare (span : Span) (target value : Expr) :
    checkPlain chain default target.bare value.bare =
      (checkPlain chain span target value).bare := by
  cases target with
  | var targetSpan name =>
      simp only [Expr.bare, checkPlain, Expr.check_bare, bare_bind, bare_pure]
  | reference targetSpan name coordinates =>
      have slot : (Expr.reference targetSpan name coordinates).bare.check chain =
          ((Expr.reference targetSpan name coordinates).check chain).bare := Expr.check_bare _
      rw [Expr.bare] at slot
      simp only [Expr.bare, checkPlain, slot, Expr.check_bare, bare_bind, bare_ite, bare_pure,
        checkSlot_bare span]
  | _ =>
      simp only [Expr.bare, checkPlain, Expr.check_bare, Expr.span, bare_bind, bare_complain,
        bare_pure]

theorem checkStore_bare (span : Span) (target : Expr) (old new : Descriptor) :
    checkStore chain default target.bare old new =
      (checkStore chain span target old new).bare := by
  cases target with
  | reference targetSpan name coordinates =>
      simp only [Expr.bare, checkStore, bare_bind, bare_pure, checkSlot_bare span]
  | _ => rfl

theorem checkCompound_bare (span : Span) (target : Expr) (arith : Arith) (value : Expr) :
    checkCompound chain default target.bare arith value.bare =
      (checkCompound chain span target arith value).bare := by
  simp only [checkCompound, Expr.check_bare, bare_bind, bare_ite, bare_pure]
  refine congrArg _ (funext fun old => congrArg _ (funext fun new => ?_))
  split
  · rfl
  · split
    · rfl
    · split
      · rfl
      · exact checkStore_bare span target old _

theorem checkAssign_bare (span : Span) (target : Expr) (op : AssignOp) (value : Expr) :
    checkAssign chain default target.bare op value.bare =
      (checkAssign chain span target op value).bare := by
  cases op with
  | plain => exact checkPlain_bare span target value
  | compound arith => exact checkCompound_bare span target arith value

theorem checkBound_bare (bound : Expr) :
    checkBound chain bound.bare = (checkBound chain bound).bare := by
  simp only [checkBound, Expr.check_bare, Expr.span_bare, bare_bind, bare_ite, bare_complain,
    bare_pure]

/-- The check of a bare statement finds what the check of the statement does. -/
def ChecksBare (statement : Stmt) : Prop :=
  ∀ checker : Checker, statement.bare.check checker.bare = (statement.check checker).bare

theorem checkAll_bare {statements : List Stmt}
    (each : ∀ statement ∈ statements, statement.ChecksBare) (checker : Checker) :
    checkAll (bareAll statements) checker.bare = (checkAll statements checker).bare := by
  induction statements generalizing checker with
  | nil => rfl
  | cons head tail ih =>
      rw [List.forall_mem_cons] at each
      rw [bareAll, checkAll, checkAll, each.1 checker, ih each.2]

theorem note_check_bare (checker : Checker) (expr : Expr) :
    checker.bare.note (expr.bare.check checker.chain) =
      (checker.note (expr.check checker.chain)).bare := by
  rw [Expr.check_bare, Checker.note_bare]

theorem check_bare (statement : Stmt) : statement.ChecksBare := by
  induction statement with
  | block span body each => exact Checker.inScope_bare (checkAll_bare each)
  | jump span kind =>
      intro checker
      show (if checker.loopDepth = 0 then _ else _) = _
      rw [check]
      split
      · exact checker.note_bare (complain (.jumpOutsideLoop kind) span)
      · rfl
  | print span arguments =>
      intro checker
      have same : Expr.checkAll checker.chain (Expr.bareAll arguments) =
          (Expr.checkAll checker.chain arguments).bare :=
        Expr.checkAll_bare fun argument _ => argument.check_bare
      rw [bare, check, check, ← checker.note_bare, ← same]
      rfl
  | «return» span value =>
      intro checker
      cases value with
      | none => rfl
      | some expr => exact note_check_bare checker expr
  | assign span target op value =>
      intro checker
      have same : checkAssign checker.chain default target.bare op value.bare =
          (checkAssign checker.chain span target op value).bare :=
        checkAssign_bare span target op value
      rw [bare, check, check, ← checker.advance_bare, ← same]
      rfl
  | branch span condition thenBranch thenSame =>
      intro checker
      rw [bare, check, check, ← thenSame, ← note_check_bare]
      rfl
  | alternative span condition thenBranch elseBranch thenSame elseSame =>
      intro checker
      rw [bare, check, check, ← elseSame, ← thenSame, ← note_check_bare]
      rfl
  | whileLoop span condition body bodySame =>
      intro checker
      rw [bare, check, check, ← Checker.inLoop_bare bodySame, ← note_check_bare]
      rfl
  | forLoop span counter first last body bodySame =>
      intro checker
      have bounded : (checker.bare.note (checkBound checker.chain first.bare)).note
          (checkBound checker.chain last.bare) =
          ((checker.note (checkBound checker.chain first)).note
            (checkBound checker.chain last)).bare := by
        rw [checkBound_bare, checkBound_bare, Checker.note_bare, Checker.note_bare]
      rw [bare, check, check]
      refine (congrArg (Checker.inLoop · _) bounded).trans ?_
      refine Checker.inLoop_bare (Checker.inScope_bare fun inner => ?_) _
      exact bodySame ⟨inner.chain.put counter.item ((Descriptor.scalar .int).named counter.item),
        inner.loopDepth, inner.diagnostics⟩

end Stmt

/-! ## Execution -/

/-- The same error, on a line that says nothing. -/
def RuntimeError.bare (error : RuntimeError) : RuntimeError :=
  { error with line? := error.line?.map fun _ => (default : Span).line }

/-- The same ending, with an error that has no line to speak of. -/
def Ending.bare (ending : Ending) : Ending :=
  { ending with flow := ending.flow.mapError RuntimeError.bare }

/-- The same end of a program, with an error that has no line to speak of. -/
def Run.bare (run : Run) : Run :=
  { run with result := run.result.mapError RuntimeError.bare }

/-- A loop whose rounds end alike ends alike, whatever its line. -/
theorem Loop.runAt_bare {test : Machine → Except Fault Bool}
    {body bodyOfBare : Machine → Option Ending} {advance : Machine → Except Fault Machine}
    (same : ∀ machine, bodyOfBare machine = (body machine).map Ending.bare) (line allowance : Nat)
    (machine : Machine) :
    runAt (default : Span).line test bodyOfBare advance allowance machine =
      (runAt line test body advance allowance machine).map Ending.bare := by
  induction allowance generalizing machine with
  | zero => rfl
  | succ allowance ih =>
      rw [runAt, runAt, same]
      cases test machine with
      | error fault => rfl
      | ok holds =>
          cases holds with
          | false => rfl
          | true =>
              cases body machine with
              | none => rfl
              | some ending =>
                  rcases ending with ⟨flow, after⟩
                  cases flow with
                  | error error => rfl
                  | ok flow =>
                      cases flow with
                      | normal | «continue» =>
                          dsimp only [Option.map_some, Ending.bare, Except.mapError]
                          cases advance after with
                          | error fault => rfl
                          | ok next => exact ih next
                      | «break» => rfl
                      | «return» value => rfl

namespace Stmt

variable {allowance : Nat}

theorem inFrame_bare {body bodyOfBare : Machine → Option Ending}
    (same : ∀ machine, bodyOfBare machine = (body machine).map Ending.bare) (machine : Machine) :
    inFrame bodyOfBare machine = (inFrame body machine).map Ending.bare := by
  rw [inFrame, inFrame, same, Option.map_map, Option.map_map]
  rfl

theorem assigned_bare (memory : Memory) (target : Expr) (op : AssignOp) (value : Expr) :
    assigned memory target.bare op value.bare = assigned memory target op value := by
  rw [assigned, assigned, assignTo, assignTo, entry, entry, Expr.place_bare, Expr.eval_bare]

theorem printedLine_bare (memory : Memory) (arguments : List Expr) :
    printedLine memory (Expr.bareAll arguments) = printedLine memory arguments := by
  rw [printedLine, printedLine, Expr.evalAll_bare fun argument _ => argument.eval_bare]

theorem returned_bare (memory : Memory) (value : Option Expr) :
    returned memory (value.map Expr.bare) = returned memory value := by
  cases value with
  | none => rfl
  | some expr => rw [Option.map_some, returned, returned, Expr.eval_bare]

theorem bounds_bare (memory : Memory) (first last : Expr) :
    bounds memory first.bare last.bare = bounds memory first last := by
  simp only [bounds, Expr.evalInt, Expr.eval_bare]

/-- A bare statement does what the statement does. -/
def ExecutesBare (allowance : Nat) (statement : Stmt) : Prop :=
  ∀ machine, statement.bare.exec allowance machine =
    (statement.exec allowance machine).map Ending.bare

theorem execAll_bare {statements : List Stmt}
    (each : ∀ statement ∈ statements, statement.ExecutesBare allowance) (machine : Machine) :
    execAll allowance (bareAll statements) machine =
      (execAll allowance statements machine).map Ending.bare := by
  induction statements generalizing machine with
  | nil => rfl
  | cons head tail ih =>
      rw [List.forall_mem_cons] at each
      rw [bareAll, execAll, execAll, each.1]
      cases head.exec allowance machine with
      | none => rfl
      | some ending =>
          rcases ending with ⟨flow, after⟩
          cases flow with
          | error error => rfl
          | ok flow =>
              cases flow with
              | normal => exact ih each.2 after
              | _ => rfl

theorem exec_bare (statement : Stmt) : statement.ExecutesBare allowance := by
  induction statement with
  | block span body each =>
      intro machine
      rw [bare, exec_eq, exec_eq]
      exact inFrame_bare (execAll_bare each) machine
  | jump span kind => cases kind <;> exact fun _ => rfl
  | print span arguments =>
      intro machine
      rw [bare, exec_eq, exec_eq, unwrapped, unwrapped, printedLine_bare]
      cases printedLine machine.memory arguments <;> rfl
  | «return» span value =>
      intro machine
      rw [bare, exec_eq, exec_eq, unwrapped, unwrapped, returned_bare]
      cases returned machine.memory value <;> rfl
  | assign span target op value =>
      intro machine
      rw [bare, exec_eq, exec_eq, unwrapped, unwrapped, assigned_bare]
      cases assigned machine.memory target op value <;> rfl
  | branch span condition thenBranch thenSame =>
      intro machine
      rw [bare, exec_eq, exec_eq, unwrapped, unwrapped, Expr.eval_bare]
      cases condition.eval machine.memory with
      | error fault => rfl
      | ok value =>
          dsimp only
          split
          · exact thenSame machine
          · rfl
  | alternative span condition thenBranch elseBranch thenSame elseSame =>
      intro machine
      rw [bare, exec_eq, exec_eq, unwrapped, unwrapped, Expr.eval_bare]
      cases condition.eval machine.memory with
      | error fault => rfl
      | ok value =>
          dsimp only
          split
          · exact thenSame machine
          · exact elseSame machine
  | whileLoop span condition body bodySame =>
      intro machine
      simp only [bare, exec_eq, unwrapped, Expr.eval_bare]
      exact Loop.runAt_bare bodySame span.line allowance machine
  | forLoop span counter first last body bodySame =>
      intro machine
      rw [bare, exec_eq, exec_eq, unwrapped, unwrapped, bounds_bare]
      cases bounds machine.memory first last with
      | error fault => rfl
      | ok range =>
          exact inFrame_bare (fun inner => Loop.runAt_bare bodySame span.line allowance _) machine

end Stmt

/-! ## Texts -/

namespace Program

theorem checkProgram_bare (program : Program) (checker : Checker) :
    checker.bare.checkProgram program.bare =
      ((checker.checkProgram program).1, (checker.checkProgram program).2.bare) := by
  have after : Stmt.checkAll program.bare.body checker.bare =
      (Stmt.checkAll program.body checker).bare :=
    Stmt.checkAll_bare (fun statement _ => statement.check_bare) checker
  have kept (checker : Checker) :
      checker.bare.diagnostics.length = checker.diagnostics.length := List.length_map ..
  rw [Checker.checkProgram, Checker.checkProgram, after, kept, kept]

theorem run_bare (program : Program) (allowance : Nat) (machine : Machine) :
    program.bare.run allowance machine = (program.run allowance machine).map Run.bare := by
  have ends : Stmt.execAll allowance program.bare.body machine =
      (Stmt.execAll allowance program.body machine).map Ending.bare :=
    Stmt.execAll_bare (fun statement _ => statement.exec_bare) machine
  rw [run, run, ends, Option.map_map, Option.map_map]
  refine congrArg (Option.map · _) (funext fun ending => ?_)
  rcases ending with ⟨flow, after⟩
  cases flow with
  | error error => rfl
  | ok flow => cases flow <;> rfl

/--
Two programs that differ in spans only, in what they are, in what any checker finds, and
in how they run on any machine.
-/
structure Alike (left right : Program) : Prop where
  trees : left.bare = right.bare
  verdicts (checker : Checker) : (checker.checkProgram left).1 = (checker.checkProgram right).1
  findings (checker : Checker) :
    (checker.checkProgram left).2.bare = (checker.checkProgram right).2.bare
  runs (allowance : Nat) (machine : Machine) :
    (left.run allowance machine).map Run.bare = (right.run allowance machine).map Run.bare

theorem alike_of_bare {left right : Program} (same : left.bare = right.bare) :
    left.Alike right := by
  have checks (checker : Checker) :
      ((checker.checkProgram left).1, (checker.checkProgram left).2.bare) =
        ((checker.checkProgram right).1, (checker.checkProgram right).2.bare) := by
    rw [← checkProgram_bare, ← checkProgram_bare, same]
  refine ⟨same, fun checker => ?_, fun checker => ?_, fun allowance machine => ?_⟩
  · exact (Prod.mk.inj (checks checker)).1
  · exact (Prod.mk.inj (checks checker)).2
  · rw [← run_bare, ← run_bare, same]

/-- What the tokens of a text decide: a message of the grammar, or a program up to spans. -/
theorem parse_of_scan {source : String} {tokens : TokenStream}
    (scans : Token.scan source = .ok tokens) :
    (∃ rejection span, ofTokens tokens = .error rejection ∧
        parse source = .error (.grammatical rejection.message span)) ∨
      ∃ program, ofTokens tokens = .ok program ∧ parse source = .ok program := by
  rw [parse, scans]
  dsimp only
  cases ofTokens tokens with
  | error rejection => exact .inl ⟨rejection, _, rfl, rfl⟩
  | ok program => exact .inr ⟨program, rfl, rfl⟩

/--
Layout does not change the meaning of a text.  Two texts with the same tokens are both
rejected with the same message, or they are programs that differ in spans only: every
checker gives the same verdict and the same diagnostics on both, and on every machine
both run alike.
-/
theorem layout_free {first second : String} {firstTokens secondTokens : TokenStream}
    (firstScans : Token.scan first = .ok firstTokens)
    (secondScans : Token.scan second = .ok secondTokens)
    (same : firstTokens.spelling = secondTokens.spelling) :
    (∃ message firstSpan secondSpan, parse first = .error (.grammatical message firstSpan) ∧
        parse second = .error (.grammatical message secondSpan)) ∨
      ∃ left right, parse first = .ok left ∧ parse second = .ok right ∧ left.Alike right := by
  have bareSame : ((ofTokens firstTokens).map bare).mapError Rejection.bare =
      ((ofTokens secondTokens).map bare).mapError Rejection.bare := by
    rw [← ofTokens_bare, ← ofTokens_bare, TokenStream.bare_of_spelling same]
  rcases parse_of_scan firstScans with
    ⟨firstRejection, firstSpan, firstReads, firstParses⟩ | ⟨left, firstReads, firstParses⟩
  · rcases parse_of_scan secondScans with
      ⟨secondRejection, secondSpan, secondReads, secondParses⟩ | ⟨right, secondReads, _⟩
    · rw [firstReads, secondReads] at bareSame
      have bares : firstRejection.bare = secondRejection.bare := Except.error.inj bareSame
      have message : firstRejection.message = secondRejection.message :=
        (Rejection.mk.inj bares).1
      rw [← message] at secondParses
      exact .inl ⟨_, firstSpan, secondSpan, firstParses, secondParses⟩
    · rw [firstReads, secondReads] at bareSame
      cases bareSame
  · rcases parse_of_scan secondScans with
      ⟨secondRejection, _, secondReads, _⟩ | ⟨right, secondReads, secondParses⟩
    · rw [firstReads, secondReads] at bareSame
      cases bareSame
    · rw [firstReads, secondReads] at bareSame
      have bares : left.bare = right.bare := Except.ok.inj bareSame
      exact .inr ⟨left, right, firstParses, secondParses, alike_of_bare bares⟩

theorem exists_scan {source : String} {spelling : List Token}
    (spells : (Token.scan source).toOption.map TokenStream.spelling = some spelling) :
    ∃ tokens : TokenStream, Token.scan source = .ok tokens ∧ tokens.spelling = spelling := by
  rcases Option.map_eq_some_iff.mp spells with ⟨tokens, scans, same⟩
  cases scanned : Token.scan source with
  | error error =>
      rw [scanned] at scans
      cases scans
  | ok found =>
      rw [scanned] at scans
      cases scans
      exact ⟨tokens, rfl, same⟩

/-- One program on one line, and on two with a comment between its tokens. -/
theorem layout_free_comment :
    ∃ left right, parse "print y;" = .ok left ∧ parse "print # y\n  y ;" = .ok right ∧
      left.Alike right := by
  have first : ∃ tokens : TokenStream, Token.scan "print y;" = .ok tokens ∧
      tokens.spelling = [.keyword .print, .identifier "y", .symbol .semicolon] :=
    exists_scan (by decide +kernel)
  have second : ∃ tokens : TokenStream, Token.scan "print # y\n  y ;" = .ok tokens ∧
      tokens.spelling = [.keyword .print, .identifier "y", .symbol .semicolon] :=
    exists_scan (by decide +kernel)
  rcases first with ⟨firstTokens, firstScans, firstSpelling⟩
  rcases second with ⟨secondTokens, secondScans, secondSpelling⟩
  rcases layout_free firstScans secondScans (firstSpelling.trans secondSpelling.symm) with
    ⟨_, _, _, rejected, _⟩ | alike
  · have reads : (parse "print y;").toBool = true := by decide +kernel
    rw [rejected] at reads
    cases reads
  · exact alike

end Program

end MatrixScript
