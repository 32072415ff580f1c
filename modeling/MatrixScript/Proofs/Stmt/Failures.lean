import Mathlib.Logic.Function.Iterate
import MatrixScript.Proofs.Stmt.Jumps
import MatrixScript.Proofs.Stmt.Rounds

/-!
# Where a run fails

A statement fails in one of two ways.  An evaluation of its own fails: what it prints,
returns or assigns, or the condition, the range or the count that decides what it
executes.  Or a statement fails that it has begun to execute.

`Stmt.Evaluates` and `Stmt.Enters` list both: the evaluations that a statement comes to
and the statements directly inside that it comes to execute, each with the machine at that
time.  `Stmt.exec_fails_iff` says that a statement fails by them and by nothing else.
Every statement around offers its line to a failure inside, which has one already; so the
failure goes outward as it is.  The frames on its way are taken off, and nothing else
changes.

A moment of a run is an evaluation together with the statements around it.  A program
fails just if its run comes to a moment at which the evaluation fails.
-/

namespace MatrixScript

/-! ## Loops that fail -/

namespace Loop

variable {line allowance : Nat} {test : Machine → Except Fault Bool}
  {body : Machine → Option Ending} {advance : Machine → Except Fault Machine}
  {machine current after : Machine} {error : RuntimeError}

/-- A loop comes to its test with a given machine, at the beginning or after some rounds. -/
inductive Arrives (test : Machine → Except Fault Bool) (body : Machine → Option Ending)
    (advance : Machine → Except Fault Machine) : Nat → Machine → Machine → Prop where
  | first (allowance : Nat) (machine : Machine) :
      Arrives test body advance (allowance + 1) machine machine
  | again {allowance : Nat} {machine next current : Machine} {inside : Ending}
      (tested : test machine = .ok true) (ended : body machine = some inside)
      (goesOn : next? advance inside = some next)
      (arrives : Arrives test body advance allowance next current) :
      Arrives test body advance (allowance + 1) machine current

/-- The ways to fail from a test on: in the test, in the round, or in the advance after it. -/
inductive FailsFrom (line : Nat) (test : Machine → Except Fault Bool)
    (body : Machine → Option Ending) (advance : Machine → Except Fault Machine)
    (current : Machine) : RuntimeError → Machine → Prop where
  | test {fault : Fault} (fails : test current = .error fault) :
      FailsFrom line test body advance current ⟨fault, some line⟩ current
  | body {error : RuntimeError} {after : Machine} (tested : test current = .ok true)
      (fails : body current = some ⟨.error error, after⟩) :
      FailsFrom line test body advance current error after
  | advance {inside : Ending} {fault : Fault} (tested : test current = .ok true)
      (ended : body current = some inside) (goesOn : inside.goesOn)
      (fails : advance inside.machine = .error fault) :
      FailsFrom line test body advance current ⟨fault, some line⟩ inside.machine

/-- A loop that has come to a test goes on from there, with what is left of its allowance. -/
theorem Arrives.runAt_eq (arrives : Arrives test body advance allowance machine current)
    (line : Nat) :
    ∃ left, runAt line test body advance allowance machine =
      runAt line test body advance (left + 1) current := by
  induction arrives with
  | first allowance machine => exact ⟨allowance, rfl⟩
  | again tested ended goesOn _ ih =>
      rw [runAt_of_next tested ended goesOn]
      exact ih

theorem runAt_of_failsFrom (fails : FailsFrom line test body advance current error after)
    (left : Nat) :
    runAt line test body advance (left + 1) current = some ⟨.error error, after⟩ := by
  rw [runAt]
  cases fails with
  | test fails =>
      rw [fails]
      rfl
  | body tested fails => rw [tested, fails]
  | @advance inside fault tested ended goesOn fails =>
      rcases inside with ⟨failure | flow, after⟩
      · cases goesOn
      · cases flow with
        | normal =>
            simp only [tested, ended, fails]
            rfl
        | «continue» =>
            simp only [tested, ended, fails]
            rfl
        | _ => cases goesOn

/-- A loop that fails does so from its first test, or goes on with a round and fails later. -/
theorem runAt_succ_error
    (runs : runAt line test body advance (allowance + 1) machine = some ⟨.error error, after⟩) :
    FailsFrom line test body advance machine error after ∨
      ∃ inside next, test machine = .ok true ∧ body machine = some inside ∧
        next? advance inside = some next ∧
        runAt line test body advance allowance next = some ⟨.error error, after⟩ := by
  rw [runAt] at runs
  split at runs
  · rename_i fault tested
    cases runs
    exact .inl (.test tested)
  · cases runs
  · rename_i tested
    split at runs
    · cases runs
    · rename_i ended
      cases runs
      exact .inl (.body tested ended)
    · cases runs
    · cases runs
    · rename_i flow stopped notBreak notReturn ended
      have goesOn : (Ending.mk (.ok flow) stopped).goesOn := by
        cases flow with
        | normal => rfl
        | «continue» => rfl
        | «break» => exact (notBreak rfl).elim
        | «return» value => exact (notReturn value rfl).elim
      split at runs
      · rename_i fault blocked
        cases runs
        exact .inl (.advance tested ended goesOn blocked)
      · rename_i next advanced
        refine .inr ⟨_, next, tested, ended, ?_, runs⟩
        rw [next?_of_goesOn goesOn, advanced]
        rfl

/-- A loop fails just if it comes to a test from which it fails. -/
theorem runAt_error_iff :
    runAt line test body advance allowance machine = some ⟨.error error, after⟩ ↔
      ∃ current, Arrives test body advance allowance machine current ∧
        FailsFrom line test body advance current error after := by
  constructor
  · intro runs
    induction allowance generalizing machine with
    | zero => cases runs
    | succ allowance ih =>
        rcases runAt_succ_error runs with fails | ⟨inside, next, tested, ended, goesOn, runs⟩
        · exact ⟨machine, .first allowance machine, fails⟩
        · rcases ih runs with ⟨current, arrives, fails⟩
          exact ⟨current, .again tested ended goesOn arrives, fails⟩
  · rintro ⟨current, arrives, fails⟩
    rcases arrives.runAt_eq line with ⟨left, same⟩
    rw [same, runAt_of_failsFrom fails]

theorem below_error_iff {counter : String} {last : Int64} {fault : Fault} :
    below counter last machine = .error fault ↔ count counter machine = .error fault :=
  bind_ok_eq_error_iff

theorem step_error_iff {counter : String} {fault : Fault} :
    step counter machine = .error fault ↔ count counter machine = .error fault :=
  bind_ok_eq_error_iff

end Loop

/-! ## Evaluations -/

/-- What a statement evaluates by itself. -/
inductive Evaluation where
  | arguments (list : List Expr)
  | result (value : Option Expr)
  | assignment (target : Expr) (op : AssignOp) (value : Expr)
  | condition (expr : Expr)
  | range (first last : Expr)
  | count (counter : String)

namespace Evaluation

/-- The evaluation meets a fault. -/
def Meets (machine : Machine) (fault : Fault) : Evaluation → Prop
  | .arguments list => Stmt.printedLine machine.memory list = .error fault
  | .result value => Stmt.returned machine.memory value = .error fault
  | .assignment target op value =>
      Stmt.assigned machine.memory target op value = .error fault
  | .condition expr => expr.eval machine.memory = .error fault
  | .range first last => Stmt.bounds machine.memory first last = .error fault
  | .count counter => Loop.count counter machine = .error fault

/-- The frames of its own that a statement has opened before the evaluation. -/
def frames : Evaluation → Nat
  | .count _ => 1
  | _ => 0

end Evaluation

/-- What a condition decides. -/
def Expr.holds (condition : Expr) (machine : Machine) : Except Fault Bool :=
  (condition.eval machine.memory).map Value.isTruthy

theorem Expr.holds_error_iff {condition : Expr} {machine : Machine} {fault : Fault} :
    condition.holds machine = .error fault ↔ condition.eval machine.memory = .error fault := by
  rw [holds]
  cases condition.eval machine.memory <;> simp [Except.map]

theorem Expr.holds_ok_iff {condition : Expr} {machine : Machine} {truth : Bool} :
    condition.holds machine = .ok truth ↔
      ∃ value, condition.eval machine.memory = .ok value ∧ value.isTruthy = truth := by
  rw [holds]
  cases condition.eval machine.memory <;> simp [Except.map]

namespace Stmt

/-- The frames of its own that a statement has opened for the statements inside it. -/
def frames : Stmt → Nat
  | .block _ _ | .forLoop _ _ _ _ _ => 1
  | _ => 0

/-- The statement is next when those in front of it have ended normally. -/
def Begins (allowance : Nat) (statements : List Stmt) (machine : Machine) (next : Stmt)
    (between : Machine) : Prop :=
  ∃ front back, statements = front ++ next :: back ∧ Passes allowance front machine between

/-- A for loop comes to its test with a given machine; its range ends with a given number. -/
def CountsTo (allowance : Nat) (counter : String) (first last : Expr) (body : Stmt)
    (machine : Machine) (high : Int64) (current : Machine) : Prop :=
  ∃ low, bounds machine.memory first last = .ok (low, high) ∧
    Loop.Arrives (Loop.below counter high) (body.exec allowance) (Loop.step counter) allowance
      { machine.enter with memory := machine.enter.memory.bind counter (.int low) } current

/-- The evaluations that a statement comes to, each with the machine at that time. -/
inductive Evaluates (allowance : Nat) : Stmt → Machine → Evaluation → Machine → Prop where
  | print (span : Span) (arguments : List Expr) (machine : Machine) :
      Evaluates allowance (.print span arguments) machine (.arguments arguments) machine
  | return (span : Span) (value : Option Expr) (machine : Machine) :
      Evaluates allowance (.return span value) machine (.result value) machine
  | assign (span : Span) (target : Expr) (op : AssignOp) (value : Expr) (machine : Machine) :
      Evaluates allowance (.assign span target op value) machine
        (.assignment target op value) machine
  | branch (span : Span) (condition : Expr) (thenBranch : Stmt) (elseBranch : Option Stmt)
      (machine : Machine) :
      Evaluates allowance (.branch span condition thenBranch elseBranch) machine
        (.condition condition) machine
  | whileLoop {span : Span} {condition : Expr} {body : Stmt} {machine current : Machine}
      (arrives : Loop.Arrives condition.holds (body.exec allowance) .ok allowance machine
        current) :
      Evaluates allowance (.whileLoop span condition body) machine (.condition condition) current
  | range (span : Span) (counter : Located String) (first last : Expr) (body : Stmt)
      (machine : Machine) :
      Evaluates allowance (.forLoop span counter first last body) machine (.range first last)
        machine
  | count {span : Span} {counter : Located String} {first last : Expr} {body : Stmt}
      {machine current : Machine} {high : Int64}
      (arrives : CountsTo allowance counter.item first last body machine high current) :
      Evaluates allowance (.forLoop span counter first last body) machine (.count counter.item)
        current
  | recount {span : Span} {counter : Located String} {first last : Expr} {body : Stmt}
      {machine current : Machine} {high : Int64} {inside : Ending}
      (arrives : CountsTo allowance counter.item first last body machine high current)
      (tested : Loop.below counter.item high current = .ok true)
      (ended : body.exec allowance current = some inside) (goesOn : inside.goesOn) :
      Evaluates allowance (.forLoop span counter first last body) machine (.count counter.item)
        inside.machine

/-- The statements directly inside that a statement comes to execute, with the machine then. -/
inductive Enters (allowance : Nat) : Stmt → Machine → Stmt → Machine → Prop where
  | block {span : Span} {body : List Stmt} {machine between : Machine} {inner : Stmt}
      (begins : Begins allowance body machine.enter inner between) :
      Enters allowance (.block span body) machine inner between
  | thenBranch {span : Span} {condition : Expr} {inner : Stmt} {elseBranch : Option Stmt}
      {machine : Machine} (holds : condition.holds machine = .ok true) :
      Enters allowance (.branch span condition inner elseBranch) machine inner machine
  | elseBranch {span : Span} {condition : Expr} {thenBranch inner : Stmt} {machine : Machine}
      (holds : condition.holds machine = .ok false) :
      Enters allowance (.branch span condition thenBranch (some inner)) machine inner machine
  | whileBody {span : Span} {condition : Expr} {body : Stmt} {machine current : Machine}
      (arrives : Loop.Arrives condition.holds (body.exec allowance) .ok allowance machine
        current)
      (holds : condition.holds current = .ok true) :
      Enters allowance (.whileLoop span condition body) machine body current
  | forBody {span : Span} {counter : Located String} {first last : Expr} {body : Stmt}
      {machine current : Machine} {high : Int64}
      (arrives : CountsTo allowance counter.item first last body machine high current)
      (tested : Loop.below counter.item high current = .ok true) :
      Enters allowance (.forLoop span counter first last body) machine body current

/-! ## Statements that fail -/

section Failures

variable {allowance : Nat} {statement inner : Stmt} {machine between current after : Machine}
  {error : RuntimeError} {fault : Fault}

theorem execAll_error_iff {statements : List Stmt} :
    execAll allowance statements machine = some ⟨.error error, after⟩ ↔
      ∃ next between, Begins allowance statements machine next between ∧
        next.exec allowance between = some ⟨.error error, after⟩ := by
  constructor
  · intro runs
    rcases execAll_cases runs with ⟨_, _, normal⟩ | stopped
    · cases normal
    · rcases stopped with ⟨front, next, back, between, splits, passes, fails, _⟩
      exact ⟨next, between, ⟨front, back, splits, passes⟩, fails⟩
  · rintro ⟨next, between, ⟨front, back, rfl, passes⟩, fails⟩
    rw [execAll_of_passes passes, execAll, fails]

/-- A failure leaves a frame as it is, and the frame is taken off. -/
theorem inFrame_error_iff {body : Machine → Option Ending} :
    inFrame body machine = some ⟨.error error, after⟩ ↔
      ∃ inside, body machine.enter = some ⟨.error error, inside⟩ ∧ after = inside.leave := by
  rw [inFrame, Option.map_eq_some_iff]
  constructor
  · rintro ⟨⟨flow, inside⟩, ended, same⟩
    cases same
    exact ⟨inside, ended, rfl⟩
  · rintro ⟨inside, ended, rfl⟩
    exact ⟨⟨.error error, inside⟩, ended, rfl⟩

theorem exec_thenBranch {span : Span} {condition : Expr} {thenBranch : Stmt}
    {elseBranch : Option Stmt} (holds : condition.holds machine = .ok true) :
    (Stmt.branch span condition thenBranch elseBranch).exec allowance machine =
      thenBranch.exec allowance machine := by
  rcases Expr.holds_ok_iff.mp holds with ⟨value, evaluated, truthy⟩
  rw [exec_eq]
  unfold unwrapped
  simp only [evaluated, truthy, if_true]

theorem exec_elseBranch {span : Span} {condition : Expr} {thenBranch elseBranch : Stmt}
    (holds : condition.holds machine = .ok false) :
    (Stmt.branch span condition thenBranch (some elseBranch)).exec allowance machine =
      elseBranch.exec allowance machine := by
  rcases Expr.holds_ok_iff.mp holds with ⟨value, evaluated, falsy⟩
  rw [exec_eq, unwrapped]
  simp only [evaluated, falsy, Bool.false_eq_true, if_false]

theorem whileLoop_error_iff {span : Span} {condition : Expr} {body : Stmt} :
    (Stmt.whileLoop span condition body).exec allowance machine = some ⟨.error error, after⟩ ↔
      ∃ current,
        Loop.Arrives condition.holds (body.exec allowance) .ok allowance machine current ∧
        Loop.FailsFrom span.line condition.holds (body.exec allowance) .ok current error
          after := by
  rw [exec_eq, unwrapped]
  exact Loop.runAt_error_iff

theorem forLoop_error_iff {span : Span} {counter : Located String} {first last : Expr}
    {body : Stmt} {low high : Int64}
    (bounded : bounds machine.memory first last = .ok (low, high)) :
    (Stmt.forLoop span counter first last body).exec allowance machine =
        some ⟨.error error, after⟩ ↔
      ∃ current inside, CountsTo allowance counter.item first last body machine high current ∧
        Loop.FailsFrom span.line (Loop.below counter.item high) (body.exec allowance)
          (Loop.step counter.item) current error inside ∧
        after = inside.leave := by
  rw [exec_eq, unwrapped]
  simp only [bounded]
  rw [inFrame_error_iff]
  constructor
  · rintro ⟨inside, runs, left⟩
    rcases Loop.runAt_error_iff.mp runs with ⟨current, arrives, fails⟩
    exact ⟨current, inside, ⟨low, bounded, arrives⟩, fails, left⟩
  · rintro ⟨current, inside, ⟨_, same, arrives⟩, fails, left⟩
    rw [bounded] at same
    cases same
    exact ⟨inside, Loop.runAt_error_iff.mpr ⟨current, arrives, fails⟩, left⟩

/-- A statement fails on its own line if an evaluation that it comes to does. -/
theorem Evaluates.fails {evaluation : Evaluation}
    (evaluates : statement.Evaluates allowance machine evaluation current)
    (meets : evaluation.Meets current fault) :
    statement.exec allowance machine =
      some (.failed fault statement.span.line (Machine.leave^[evaluation.frames] current)) := by
  cases evaluates with
  | print span arguments =>
      rw [exec_eq, unwrapped]
      simp only [show printedLine _ arguments = _ from meets]
      rfl
  | «return» span value =>
      rw [exec_eq, unwrapped]
      simp only [show returned _ value = _ from meets]
      rfl
  | assign span target op value =>
      rw [exec_eq, unwrapped]
      simp only [show assigned _ target op value = _ from meets]
      rfl
  | branch span condition thenBranch elseBranch =>
      rw [exec_eq]
      unfold unwrapped
      simp only [show condition.eval _ = _ from meets]
      rfl
  | whileLoop arrives =>
      exact whileLoop_error_iff.mpr ⟨_, arrives, .test (Expr.holds_error_iff.mpr meets)⟩
  | range span counter first last body =>
      rw [exec_eq, unwrapped]
      simp only [show bounds _ first last = _ from meets]
      rfl
  | count arrives =>
      rcases arrives with ⟨low, bounded, reached⟩
      exact (forLoop_error_iff bounded).mpr ⟨_, _, ⟨low, bounded, reached⟩,
        .test (Loop.below_error_iff.mpr meets), rfl⟩
  | recount arrives tested ended goesOn =>
      rcases arrives with ⟨low, bounded, reached⟩
      exact (forLoop_error_iff bounded).mpr ⟨_, _, ⟨low, bounded, reached⟩,
        .advance tested ended goesOn (Loop.step_error_iff.mpr meets), rfl⟩

/-- A statement fails as the one fails that it has come to execute. -/
theorem Enters.fails (enters : statement.Enters allowance machine inner between)
    (fails : inner.exec allowance between = some ⟨.error error, after⟩) :
    statement.exec allowance machine =
      some ⟨.error error, Machine.leave^[statement.frames] after⟩ := by
  cases enters with
  | block begins =>
      rw [exec_eq, unwrapped]
      exact inFrame_error_iff.mpr ⟨after, execAll_error_iff.mpr ⟨_, _, begins, fails⟩, rfl⟩
  | thenBranch holds =>
      rw [exec_thenBranch holds]
      exact fails
  | elseBranch holds =>
      rw [exec_elseBranch holds]
      exact fails
  | whileBody arrives holds =>
      exact whileLoop_error_iff.mpr ⟨between, arrives, .body holds fails⟩
  | forBody arrives tested =>
      rcases arrives with ⟨low, bounded, reached⟩
      exact (forLoop_error_iff bounded).mpr
        ⟨between, after, ⟨low, bounded, reached⟩, .body tested fails, rfl⟩

/-- The two ways to fail: by an evaluation of one's own, or by a statement inside. -/
inductive FailsWith (allowance : Nat) (statement : Stmt) (machine : Machine) :
    RuntimeError → Machine → Prop where
  | itself {evaluation : Evaluation} {current : Machine} {fault : Fault}
      (evaluates : statement.Evaluates allowance machine evaluation current)
      (meets : evaluation.Meets current fault) :
      FailsWith allowance statement machine ⟨fault, some statement.span.line⟩
        (Machine.leave^[evaluation.frames] current)
  | inside {inner : Stmt} {between after : Machine} {error : RuntimeError}
      (enters : statement.Enters allowance machine inner between)
      (fails : inner.exec allowance between = some ⟨.error error, after⟩) :
      FailsWith allowance statement machine error (Machine.leave^[statement.frames] after)

theorem branch_failsWith {span : Span} {condition : Expr} {thenBranch : Stmt}
    {elseBranch : Option Stmt}
    (fails : (Stmt.branch span condition thenBranch elseBranch).exec allowance machine =
      some ⟨.error error, after⟩) :
    (Stmt.branch span condition thenBranch elseBranch).FailsWith allowance machine error
      after := by
  rw [exec_eq] at fails
  unfold unwrapped at fails
  dsimp only at fails
  split at fails
  · rename_i fault evaluated
    cases fails
    exact .itself (.branch span condition thenBranch elseBranch _) evaluated
  · rename_i value evaluated
    split at fails
    · rename_i truthy
      have holds := Expr.holds_ok_iff.mpr ⟨value, evaluated, truthy⟩
      exact .inside (.thenBranch holds) fails
    · rename_i falsy
      rw [Bool.not_eq_true] at falsy
      have holds := Expr.holds_ok_iff.mpr ⟨value, evaluated, falsy⟩
      split at fails
      · cases fails
      · exact .inside (.elseBranch holds) fails

theorem whileLoop_failsWith {span : Span} {condition : Expr} {body : Stmt}
    (fails : (Stmt.whileLoop span condition body).exec allowance machine =
      some ⟨.error error, after⟩) :
    (Stmt.whileLoop span condition body).FailsWith allowance machine error after := by
  rcases whileLoop_error_iff.mp fails with ⟨current, arrives, stops⟩
  cases stops with
  | test testFails => exact .itself (.whileLoop arrives) (Expr.holds_error_iff.mp testFails)
  | body tested bodyFails => exact .inside (.whileBody arrives tested) bodyFails
  | advance _ _ _ impossible => cases impossible

theorem forLoop_failsWith {span : Span} {counter : Located String} {first last : Expr}
    {body : Stmt}
    (fails : (Stmt.forLoop span counter first last body).exec allowance machine =
      some ⟨.error error, after⟩) :
    (Stmt.forLoop span counter first last body).FailsWith allowance machine error after := by
  cases bounded : bounds machine.memory first last with
  | error fault =>
      rw [exec_eq, unwrapped] at fails
      simp only [bounded] at fails
      cases fails
      exact .itself (.range span counter first last body _) bounded
  | ok range =>
      rcases (forLoop_error_iff bounded).mp fails with ⟨current, inside, arrives, stops, rfl⟩
      cases stops with
      | test testFails => exact .itself (.count arrives) (Loop.below_error_iff.mp testFails)
      | body tested bodyFails => exact .inside (.forBody arrives tested) bodyFails
      | advance tested ended goesOn stepFails =>
          exact .itself (.recount arrives tested ended goesOn)
            (Loop.step_error_iff.mp stepFails)

/-- A statement fails by an evaluation of its own or by a statement inside it. -/
theorem exec_fails_iff :
    statement.exec allowance machine = some ⟨.error error, after⟩ ↔
      statement.FailsWith allowance machine error after := by
  constructor
  · intro fails
    cases statement with
    | block span body =>
        rw [exec_eq, unwrapped] at fails
        rcases inFrame_error_iff.mp fails with ⟨inside, bodyFails, rfl⟩
        rcases execAll_error_iff.mp bodyFails with ⟨next, between, begins, nextFails⟩
        exact .inside (.block begins) nextFails
    | jump span kind => cases kind <;> cases fails
    | print span arguments =>
        rw [exec_eq, unwrapped] at fails
        split at fails
        · rename_i fault printed
          cases fails
          exact .itself (.print span arguments _) printed
        · cases fails
    | «return» span value =>
        rw [exec_eq, unwrapped] at fails
        split at fails
        · rename_i fault returned
          cases fails
          exact .itself (.return span value _) returned
        · cases fails
    | assign span target op value =>
        rw [exec_eq, unwrapped] at fails
        split at fails
        · rename_i fault assigned
          cases fails
          exact .itself (.assign span target op value _) assigned
        · cases fails
    | branch span condition thenBranch elseBranch => exact branch_failsWith fails
    | whileLoop span condition body => exact whileLoop_failsWith fails
    | forLoop span counter first last body => exact forLoop_failsWith fails
  · intro failsWith
    cases failsWith with
    | itself evaluates meets => exact evaluates.fails meets
    | inside enters fails => exact enters.fails fails

/-- A statement that another one comes to execute is a part of it. -/
theorem Enters.sizeOf_lt (enters : statement.Enters allowance machine inner between) :
    sizeOf inner < sizeOf statement := by
  cases enters with
  | block begins =>
      rcases begins with ⟨front, back, rfl, _⟩
      have member := List.sizeOf_lt_of_mem
        (List.mem_append_right front (List.mem_cons_self (a := inner) (l := back)))
      simp only [block.sizeOf_spec]
      omega
  | thenBranch =>
      simp only [branch.sizeOf_spec]
      omega
  | elseBranch =>
      simp only [branch.sizeOf_spec, Option.some.sizeOf_spec]
      omega
  | whileBody =>
      simp only [whileLoop.sizeOf_spec]
      omega
  | forBody =>
      simp only [forLoop.sizeOf_spec]
      omega

theorem self_mem_placed (statement : Stmt) (around : List Stmt) :
    ⟨around, statement⟩ ∈ statement.placed around := by
  cases statement with
  | branch span condition thenBranch elseBranch =>
      cases elseBranch <;> exact List.mem_cons_self
  | _ => exact List.mem_cons_self

/-- What is placed in the statement inside is placed in the one around it. -/
theorem Enters.placed_subset (enters : statement.Enters allowance machine inner between)
    (around : List Stmt) :
    inner.placed (statement :: around) ⊆ statement.placed around := by
  cases enters with
  | block begins =>
      rcases begins with ⟨front, back, rfl, _⟩
      rw [placed]
      apply List.subset_cons_of_subset
      exact placed_subset_placedOfAll (List.mem_append_right _ List.mem_cons_self) _
  | @thenBranch span condition _ elseBranch =>
      cases elseBranch with
      | none =>
          rw [placed]
          exact List.subset_cons_self _ _
      | some other =>
          rw [placed]
          exact List.subset_cons_of_subset _ (List.subset_append_left _ _)
  | elseBranch =>
      rw [placed]
      exact List.subset_cons_of_subset _ (List.subset_append_right _ _)
  | whileBody =>
      rw [placed]
      exact List.subset_cons_self _ _
  | forBody =>
      rw [placed]
      exact List.subset_cons_self _ _

end Failures

end Stmt

/-! ## Moments of a run -/

/-- An evaluation by a statement of a program, and the machine at that time. -/
structure Moment where
  /-- The statements around the one that evaluates, from the innermost out. -/
  around : List Stmt
  statement : Stmt
  evaluation : Evaluation
  machine : Machine

namespace Moment

/-- The moment with one more statement around it. -/
def within (moment : Moment) (outer : Stmt) : Moment :=
  { moment with around := moment.around ++ [outer] }

/-- The frames that are opened on the way to the moment. -/
def depth (moment : Moment) : Nat :=
  moment.around.foldl (fun inside outer => outer.frames + inside) moment.evaluation.frames

theorem depth_within (moment : Moment) (outer : Stmt) :
    (moment.within outer).depth = outer.frames + moment.depth := by
  rw [depth, within, List.foldl_append]
  rfl

end Moment

namespace Stmt

variable {allowance : Nat} {statement : Stmt} {machine after : Machine} {moment : Moment}
  {error : RuntimeError} {fault : Fault}

/-- A run of the statement comes to the moment. -/
inductive ComesTo (allowance : Nat) : Stmt → Machine → Moment → Prop where
  | itself {statement : Stmt} {machine current : Machine} {evaluation : Evaluation}
      (evaluates : statement.Evaluates allowance machine evaluation current) :
      ComesTo allowance statement machine ⟨[], statement, evaluation, current⟩
  | inside {outer inner : Stmt} {machine between : Machine} {moment : Moment}
      (enters : outer.Enters allowance machine inner between)
      (comes : ComesTo allowance inner between moment) :
      ComesTo allowance outer machine (moment.within outer)

/-- A run comes to moments of the nodes of its statement only. -/
theorem ComesTo.placed (comes : statement.ComesTo allowance machine moment)
    (around : List Stmt) :
    ⟨moment.around ++ around, moment.statement⟩ ∈ statement.placed around := by
  induction comes generalizing around with
  | itself evaluates => exact self_mem_placed _ around
  | @inside outer inner machine between moment enters _ ih =>
      have found := enters.placed_subset around (ih (outer :: around))
      rw [← List.singleton_append, ← List.append_assoc] at found
      exact found

/-- A run fails at a moment at which the evaluation fails, and leaves its frames. -/
theorem ComesTo.fails (comes : statement.ComesTo allowance machine moment)
    (meets : moment.evaluation.Meets moment.machine fault) :
    statement.exec allowance machine =
      some (.failed fault moment.statement.span.line
        (Machine.leave^[moment.depth] moment.machine)) := by
  induction comes with
  | itself evaluates => exact evaluates.fails meets
  | @inside outer inner machine between moment enters _ ih =>
      rw [Moment.depth_within, Function.iterate_add_apply]
      exact enters.fails (ih meets)

/-- A run that fails has come to such a moment. -/
theorem exists_comesTo (statement : Stmt) (machine after : Machine)
    (fails : statement.exec allowance machine = some ⟨.error error, after⟩) :
    ∃ moment fault, statement.ComesTo allowance machine moment ∧
      moment.evaluation.Meets moment.machine fault := by
  cases exec_fails_iff.mp fails with
  | itself evaluates meets => exact ⟨_, _, .itself evaluates, meets⟩
  | @inside inner between inside _ enters innerFails =>
      have smaller := enters.sizeOf_lt
      rcases exists_comesTo inner between inside innerFails with ⟨moment, fault, comes, meets⟩
      exact ⟨moment.within statement, fault, .inside enters comes, meets⟩
termination_by sizeOf statement

end Stmt

namespace Program

/-- A run of the program comes to the moment. -/
def ComesTo (program : Program) (allowance : Nat) (machine : Machine) (moment : Moment) : Prop :=
  ∃ statement between, Stmt.Begins allowance program.body machine statement between ∧
    statement.ComesTo allowance between moment

theorem ComesTo.placed {program : Program} {allowance : Nat} {machine : Machine}
    {moment : Moment} (comes : program.ComesTo allowance machine moment) :
    ⟨moment.around, moment.statement⟩ ∈ program.placed := by
  rcases comes with ⟨statement, between, ⟨front, back, splits, _⟩, comes⟩
  have member : statement ∈ program.body := by
    rw [splits]
    exact List.mem_append_right _ List.mem_cons_self
  have found := Stmt.placed_subset_placedOfAll member [] (comes.placed [])
  rw [List.append_nil] at found
  exact found

theorem run_error_iff {program : Program} {allowance : Nat} {machine after : Machine}
    {error : RuntimeError} :
    program.run allowance machine = some ⟨.error error, after⟩ ↔
      Stmt.execAll allowance program.body machine = some ⟨.error error, after⟩ := by
  rw [run, Option.map_eq_some_iff]
  constructor
  · rintro ⟨⟨failure | flow, stopped⟩, ended, same⟩
    · cases same
      exact ended
    · cases flow <;> cases same
  · intro ended
    exact ⟨_, ended, rfl⟩

/--
A run fails just if it comes to a moment at which the evaluation fails.  The error then has
the line of the statement that evaluates, whatever is around it.  What is left is the
machine of that moment, as the statements executed before have made it, without the frames
that were opened on the way.
-/
theorem run_fails_iff (program : Program) (allowance : Nat) (machine after : Machine)
    (error : RuntimeError) :
    program.run allowance machine = some ⟨.error error, after⟩ ↔
      ∃ (moment : Moment) (fault : Fault), program.ComesTo allowance machine moment ∧
        ⟨moment.around, moment.statement⟩ ∈ program.placed ∧
        moment.evaluation.Meets moment.machine fault ∧
        error = ⟨fault, some moment.statement.span.line⟩ ∧
        after = Machine.leave^[moment.depth] moment.machine := by
  rw [run_error_iff, Stmt.execAll_error_iff]
  constructor
  · rintro ⟨statement, between, begins, fails⟩
    rcases statement.exists_comesTo between after fails with ⟨moment, fault, comes, meets⟩
    have comesTo : program.ComesTo allowance machine moment := ⟨statement, between, begins, comes⟩
    rw [comes.fails meets] at fails
    cases fails
    exact ⟨moment, fault, comesTo, comesTo.placed, meets, rfl, rfl⟩
  · rintro ⟨moment, fault, ⟨statement, between, begins, comes⟩, _, meets, rfl, rfl⟩
    exact ⟨statement, between, begins, comes.fails meets⟩

namespace Sample

/-- An array with two slots that hold the same number. -/
def slots (number : Int64) : Machine :=
  ⟨Memory.root.bind "a" (.array [.int number, .int number]), .empty⟩

/-- The loop `for i = 0 : 3 {`, `print i;`, `a[i] = 7; }` on three lines. -/
def threeWrites : Program :=
  ⟨[.forLoop ⟨0, 36, 1⟩ ⟨"i", default⟩ (.int default 0) (.int default 3)
    (.block ⟨14, 36, 1⟩
      [.print ⟨16, 23, 2⟩ [.var default "i"],
      .assign ⟨25, 33, 3⟩ (.reference default ⟨"a", default⟩ [.var default "i"]) .plain
        (.int default 7)])]⟩

end Sample

/-- The third write fails: on its own line, after three lines printed and two slots written. -/
theorem run_fails_iff_thirdWrite :
    Sample.threeWrites.run 4 (Sample.slots 0) =
        some ⟨.error ⟨.indexOutOfBounds 2 2, some 3⟩,
          { Sample.slots 7 with transcript := .kept "0\n1\n2\n" }⟩ ∧
      ∃ moment, Sample.threeWrites.ComesTo 4 (Sample.slots 0) moment ∧
        moment.statement.span.line = 3 ∧
        moment.evaluation.Meets moment.machine (.indexOutOfBounds 2 2) := by
  have runs : Sample.threeWrites.run 4 (Sample.slots 0) =
        some ⟨.error ⟨.indexOutOfBounds 2 2, some 3⟩,
          { Sample.slots 7 with transcript := .kept "0\n1\n2\n" }⟩ := rfl
  rcases (run_fails_iff _ _ _ _ _).mp runs with ⟨moment, fault, comes, _, meets, located, _⟩
  rw [RuntimeError.mk.injEq, Option.some.injEq] at located
  rcases located with ⟨rfl, line⟩
  exact ⟨runs, moment, comes, line.symm, meets⟩

end Program

end MatrixScript
