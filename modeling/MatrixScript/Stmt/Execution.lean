import MatrixScript.Stmt
import MatrixScript.Machine
import MatrixScript.Expr.Evaluation

/-!
# Execution of statements

A statement changes a machine and ends with a flow or an error.  Blocks and for loops
run in a frame of their own, which is gone afterwards however they end.  On its way out an
error passes every statement that it was raised in, and each of them offers its line; the
first line offered stays.

Loops need not end, so execution takes an allowance: the number of rounds that any
one loop may begin.  A result of `none` says that some loop used it up; a run that
ends does so with the same ending under every greater allowance.
-/

namespace MatrixScript

namespace Loop

/--
The rounds of a loop.  Before each round `test` decides whether there is one, and after it
`advance` prepares the next.
-/
def run (test : Machine → Except Fault Bool) (body : Machine → Option Ending)
    (advance : Machine → Except Fault Machine) : Nat → Machine → Option Ending
  | 0, _ => none
  | allowance + 1, machine =>
      match test machine with
      | .error fault => some (.raised fault machine)
      | .ok false => some (.done .normal machine)
      | .ok true =>
          match body machine with
          | none => none
          | some ⟨.error error, after⟩ => some ⟨.error error, after⟩
          | some ⟨.ok .«break», after⟩ => some (.done .normal after)
          | some ⟨.ok (.return value), after⟩ => some (.done (.return value) after)
          | some ⟨.ok _, after⟩ =>
              match advance after with
              | .error fault => some (.raised fault after)
              | .ok next => run test body advance allowance next

/-- The current count of a for loop. -/
def count (counter : String) (machine : Machine) : Except Fault Int64 := do
  let value ← machine.memory.get (.var counter)
  value.expectInt

/-- The count has not reached its end. -/
def below (counter : String) (last : Int64) (machine : Machine) : Except Fault Bool := do
  let current ← count counter machine
  .ok (decide (current < last))

/-- The machine with a count that is higher by one. -/
def step (counter : String) (machine : Machine) : Except Fault Machine := do
  let current ← count counter machine
  .ok { machine with memory := machine.memory.update counter (.int (current + 1)) }

end Loop

namespace Stmt

/-- Run something in a frame of its own. -/
def inFrame (body : Machine → Option Ending) (machine : Machine) : Option Ending :=
  (body machine.enter).map fun ending => { ending with machine := ending.machine.leave }

/-- The place that an assignment writes to, and the value that it writes there. -/
def entry (memory : Memory) (target : Expr) (op : AssignOp) (value : Expr) :
    Except Fault (Place × Value) := do
  let place ← target.place memory
  let new ← value.eval memory
  match op with
  | .plain => .ok (place, new)
  | .compound arith => do
      let old ← memory.get place
      let combined ← Value.binary (.plain arith) old new
      .ok (place, combined)

/-- Write the value of an assignment to its place. -/
def record (memory : Memory) (op : AssignOp) (place : Place) (value : Value) : Change Memory :=
  match op, place with
  | .plain, .var _ => memory.declare place value
  | _, _ => memory.store place value

/-- Assign to a target, in place. -/
def assignTo (memory : Memory) (target : Expr) (op : AssignOp) (value : Expr) : Change Memory :=
  match entry memory target op value with
  | .error fault => ⟨some fault, memory⟩
  | .ok (place, new) => record memory op place new

/-- The line that a print statement prints. -/
def printedLine (memory : Memory) (arguments : List Expr) : Except Fault String := do
  let values ← Expr.evalAll memory arguments
  .ok (", ".intercalate (values.map Value.text))

/-- The value that a return statement returns. -/
def returned (memory : Memory) (value : Option Expr) : Except Fault (Option Value) :=
  match value with
  | none => .ok none
  | some expr => do
      let result ← expr.eval memory
      .ok (some result)

/-- The bounds of a for loop. -/
def bounds (memory : Memory) (first last : Expr) : Except Fault (Int64 × Int64) := do
  let low ← first.evalInt memory
  let high ← last.evalInt memory
  .ok (low, high)

mutual

/-- Execute a statement, and offer its line to an error that comes out of it. -/
def exec (allowance : Nat) (statement : Stmt) (machine : Machine) : Option Ending :=
  Option.map (Ending.atLine statement.span.line) <|
    match statement with
    | .block _ body => inFrame (execAll allowance body) machine
    | .jump _ .«break» => some (.done .«break» machine)
    | .jump _ .«continue» => some (.done .«continue» machine)
    | .print _ arguments =>
        match printedLine machine.memory arguments with
        | .error fault => some (.raised fault machine)
        | .ok line =>
            some (.done .normal { machine with transcript := machine.transcript.printLine line })
    | .return _ value =>
        match returned machine.memory value with
        | .error fault => some (.raised fault machine)
        | .ok result => some (.done (.return result) machine)
    | .assign _ target op value =>
        let written := assignTo machine.memory target op value
        match written.fault? with
        | some fault => some (.raised fault { machine with memory := written.left })
        | none => some (.done .normal { machine with memory := written.left })
    | .branch _ condition thenBranch elseBranch =>
        match condition.eval machine.memory with
        | .error fault => some (.raised fault machine)
        | .ok value =>
            if value.isTruthy then exec allowance thenBranch machine
            else
              match elseBranch with
              | none => some (.done .normal machine)
              | some statement => exec allowance statement machine
    | .whileLoop _ condition body =>
        Loop.run (fun current => (condition.eval current.memory).map Value.isTruthy)
          (exec allowance body) .ok allowance machine
    | .forLoop _ counter first last body =>
        match bounds machine.memory first last with
        | .error fault => some (.raised fault machine)
        | .ok (low, high) =>
            inFrame
              (fun inner =>
                Loop.run (Loop.below counter.item high) (exec allowance body)
                  (Loop.step counter.item) allowance
                  { inner with memory := inner.memory.bind counter.item (.int low) })
              machine

/-- Execute statements in order, up to the first that does not end normally. -/
def execAll (allowance : Nat) : List Stmt → Machine → Option Ending
  | [], machine => some (.done .normal machine)
  | head :: tail, machine =>
      match exec allowance head machine with
      | some ⟨.ok .normal, after⟩ => execAll allowance tail after
      | other => other

end

end Stmt

/-- The end of a program: a value if it returned one, or an error, and the machine it leaves. -/
structure Run where
  result : Except RuntimeError (Option Value)
  machine : Machine

namespace Program

/-- What the end of its statements means for a program; a stray jump ends it without value. -/
def conclude (ending : Ending) : Run :=
  match ending.flow with
  | .error error => ⟨.error error, ending.machine⟩
  | .ok (.return value) => ⟨.ok value, ending.machine⟩
  | .ok _ => ⟨.ok none, ending.machine⟩

/-- Run a program. -/
def run (allowance : Nat) (program : Program) (machine : Machine) : Option Run :=
  (Stmt.execAll allowance program.body machine).map conclude

end Program

/-- An allowance of rounds that no loop uses up in a lifetime. -/
def Loop.ample : Nat := Nat.pow 2 62

end MatrixScript
