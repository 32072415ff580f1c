/-!
# Faults

A fault is the reason why a computation has no result.  A runtime error is a fault
together with the line of the statement that met it.  A change that is made in place
leaves something behind also when it meets a fault.
-/

namespace MatrixScript

/-- Why a computation has no result. -/
inductive Fault where
  /-- A name without a value. -/
  | undefinedVariable (name : String)
  /-- A value of the wrong type. -/
  | wrongType (expected found : String)
  /-- Two values that an operation does not combine. -/
  | unsupported (operation left right : String)
  /-- Arrays whose sizes do not agree. -/
  | shapeMismatch (left right : List Nat)
  | divisionByZero
  | indexOutOfBounds (index : Int64) (length : Nat)
  /-- An argument that a matrix constructor cannot use. -/
  | invalidArgument (message : String)
deriving DecidableEq, Repr

/-- The kinds of faults. -/
inductive FaultKind where
  | undefinedVariable
  | typeError
  | shapeMismatch
  | divisionByZero
  | indexOutOfBounds
  | invalidArgument
deriving DecidableEq, Repr

/-- The sizes of an array as messages show them. -/
def sizesText (sizes : List Nat) : String :=
  "[" ++ ", ".intercalate (sizes.map toString) ++ "]"

namespace Fault

/-- The kind of a fault. -/
def kind : Fault → FaultKind
  | .undefinedVariable _ => .undefinedVariable
  | .wrongType _ _ | .unsupported _ _ _ => .typeError
  | .shapeMismatch _ _ => .shapeMismatch
  | .divisionByZero => .divisionByZero
  | .indexOutOfBounds _ _ => .indexOutOfBounds
  | .invalidArgument _ => .invalidArgument

/-- The wording of a fault. -/
def message : Fault → String
  | .undefinedVariable name => s!"variable {name} does not exist"
  | .wrongType expected found => s!"type error: expected {expected}, got {found}"
  | .unsupported operation left right => s!"type error: cannot {operation} {left} and {right}"
  | .shapeMismatch left right => s!"shape mismatch: {sizesText left} and {sizesText right}"
  | .divisionByZero => "division by zero"
  | .indexOutOfBounds index length =>
      s!"index {index.toInt} out of bounds for length {length}"
  | .invalidArgument message => message

end Fault

/-- A fault, and the line of the statement that met it once that is known. -/
structure RuntimeError where
  fault : Fault
  line? : Option Nat
deriving DecidableEq, Repr

namespace RuntimeError

/-- Add a line, unless a line is known already. -/
def atLine (error : RuntimeError) (line : Nat) : RuntimeError :=
  { error with line? := some (error.line?.getD line) }

/-- The whole report. -/
def text (error : RuntimeError) : String :=
  match error.line? with
  | some line => s!"Runtime error in line {line}: {error.fault.message}"
  | none => s!"Runtime error: {error.fault.message}"

end RuntimeError

/-- A change in place: the fault that it met, if it met one, and what it left. -/
structure Change (α : Type) where
  fault? : Option Fault
  left : α

/-- The result of a change that met no fault. -/
def Change.outcome {α : Type} (change : Change α) : Except Fault α :=
  match change.fault? with
  | none => .ok change.left
  | some fault => .error fault

end MatrixScript
