import MatrixScript.Checker
import MatrixScript.Stmt.Parser
import MatrixScript.Stmt.Execution

/-!
# Sessions

A session keeps one checker and one machine, and is fed one line after another.
A line that is rejected before it runs changes neither; a line that fails while it runs
keeps what it did up to the failure.
-/

namespace MatrixScript

/-- A checker and a machine that have seen the same lines. -/
structure Session where
  checker : Checker
  machine : Machine

/-- What became of a line. -/
inductive Reply where
  /-- The line ran, and returned a value or not. -/
  | done (value : Option Value)
  /-- The line is no program. -/
  | malformed (error : SourceError)
  /-- The checker found errors in the line. -/
  | rejected (diagnostics : List Diagnostic)
  /-- The line ran into an error. -/
  | failed (error : RuntimeError)

namespace Session

/-- A session before its first line. -/
def start : Session := ⟨.start, .start .empty⟩

/-- Run a program that the checker has accepted. -/
def runAccepted (allowance : Nat) (checker : Checker) (machine : Machine) (program : Program) :
    Option (Reply × Session) :=
  (program.run allowance machine).map fun run =>
    (match run.result with
      | .ok value => .done value
      | .error error => .failed error,
      ⟨checker, run.machine⟩)

/-- Feed a program to a session. -/
def feedProgram (allowance : Nat) (session : Session) (program : Program) :
    Option (Reply × Session) :=
  match session.checker.checkIncremental program with
  | (false, checker) =>
      some (.rejected checker.diagnostics, { session with checker := checker.takeDiagnostics.2 })
  | (true, checker) => runAccepted allowance checker.takeDiagnostics.2 session.machine program

/-- Feed a line to a session. -/
def feed (allowance : Nat) (session : Session) (line : String) : Option (Reply × Session) :=
  match Program.parse line with
  | .error error => some (.malformed error, session)
  | .ok program => session.feedProgram allowance program

end Session

end MatrixScript
