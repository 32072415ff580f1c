import MatrixScript.Span
import MatrixScript.Operator
import MatrixScript.Descriptor

/-!
# Diagnostics

A diagnostic is a complaint about a part of a program, found before the program runs.
A misspelled name comes with a hint.
-/

namespace MatrixScript

/-- What is wrong with a part of a program. -/
inductive Complaint where
  | undefinedVariable (name : String)
  | jumpOutsideLoop (kind : Jump)
  | rangeBound (found : Ty)
  /-- A compound assignment of a value to a variable or slot it cannot be combined with. -/
  | cannotAssign (op : AssignOp) (value target : Ty)
  | invalidTarget
  | sliceType (found : Ty)
  | sliceShape (value slot : Shape)
  | elementType (found : Ty)
  /-- A matrix literal whose rows have different lengths. -/
  | raggedMatrix
  | cannotCombine (op : BinaryOp) (left right : Ty)
  | cannotCompare (op : Comparison) (left right : Ty)
  | cannotApply (op : UnaryOp) (operand : Ty)
  | shapeMismatch (left right : Shape)
  | tooManyCoordinates
  | coordinateType (found : Ty)
  | outOfBounds (index : Int64) (size : Dim)
  | sizeType (found : Ty)
  | arity (builtin : Builtin) (count : Nat)
  /-- A complaint with a wording of its own. -/
  | other (message : String)
deriving DecidableEq, Repr

/-- The wording of a complaint. -/
def Complaint.message : Complaint → String
  | .undefinedVariable name => s!"undefined variable {name}"
  | .jumpOutsideLoop kind => s!"flow keyword {kind.describe} must be used inside a loop"
  | .rangeBound found => s!"range bound must be int, found {found.text}"
  | .cannotAssign op value target => s!"cannot {op.describe} {value.text} to {target.text}"
  | .invalidTarget => "invalid assignment target"
  | .sliceType found => s!"cannot assign {found.text} to a matrix slice, expected vector"
  | .sliceShape value slot =>
      s!"vector sized {value.text} does not match matrix dimensions {slot.text}"
  | .elementType found => s!"matrix element must be int or float, found {found.text}"
  | .raggedMatrix => "vectors with different sizes in matrix initialization"
  | .cannotCombine op left right => s!"cannot {op.describe} {left.text} and {right.text}"
  | .cannotCompare op left right =>
      s!"cannot compare {left.text} and {right.text} with `{op.text}`"
  | .cannotApply op operand => s!"cannot perform {op.describe} on {operand.text}"
  | .shapeMismatch left right => s!"shape mismatch: {left.text} and {right.text}"
  | .tooManyCoordinates => "too many dimensions in vector reference"
  | .coordinateType found => s!"expected int as array coordinate, found {found.text}"
  | .outOfBounds index size => s!"reference {index.toInt} out of bounds for size {size.text}"
  | .sizeType found => s!"expected int as array size, found {found.text}"
  | .arity builtin count => s!"{builtin.text} expects 1 or 2 arguments, got {count}"
  | .other message => message

/-- A complaint, the part of the program it is about, and a hint if there is one. -/
structure Diagnostic where
  complaint : Complaint
  span : Span
  hint? : Option String
deriving DecidableEq, Repr

namespace Diagnostic

/-- The line a diagnostic is about. -/
def line (diagnostic : Diagnostic) : Nat :=
  diagnostic.span.line

/-- The wording of a diagnostic. -/
def message (diagnostic : Diagnostic) : String :=
  diagnostic.complaint.message

/-- The whole report. -/
def text (diagnostic : Diagnostic) : String :=
  s!"Error in line {diagnostic.line}: {diagnostic.message}"

/-- The whole report with its hint. -/
def textWithHint (diagnostic : Diagnostic) : String :=
  match diagnostic.hint? with
  | some hint => diagnostic.text ++ " (" ++ hint ++ ")"
  | none => diagnostic.text

end Diagnostic

/-- A result, and the diagnostics found on the way to it, in order. -/
structure Checked (α : Type) where
  result : α
  diagnostics : List Diagnostic

namespace Checked

/-- A result without diagnostics. -/
protected def pure {α : Type} (result : α) : Checked α := ⟨result, []⟩

/-- One check after another. -/
protected def bind {α β : Type} (first : Checked α) (next : α → Checked β) : Checked β :=
  let second := next first.result
  ⟨second.result, first.diagnostics ++ second.diagnostics⟩

instance : Monad Checked where
  pure := Checked.pure
  bind := Checked.bind

/-- A diagnostic without hint. -/
def complain (complaint : Complaint) (span : Span) : Checked Unit :=
  ⟨(), [⟨complaint, span, none⟩]⟩

/-- A diagnostic about an expression, of which nothing is known then. -/
def refuse (complaint : Complaint) (span : Span) : Checked Descriptor :=
  ⟨.undefined, [⟨complaint, span, none⟩]⟩

@[simp]
theorem result_pure {α : Type} (value : α) : (pure value : Checked α).result = value := rfl

@[simp]
theorem diagnostics_pure {α : Type} (value : α) : (pure value : Checked α).diagnostics = [] := rfl

@[simp]
theorem result_bind {α β : Type} (first : Checked α) (next : α → Checked β) :
    (first >>= next).result = (next first.result).result := rfl

@[simp]
theorem diagnostics_bind {α β : Type} (first : Checked α) (next : α → Checked β) :
    (first >>= next).diagnostics = first.diagnostics ++ (next first.result).diagnostics := rfl

end Checked

end MatrixScript
