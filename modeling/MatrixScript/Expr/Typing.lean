import MatrixScript.Expr
import MatrixScript.Scope
import MatrixScript.Signature
import MatrixScript.Diagnostic
import MatrixScript.EditDistance

/-!
# Descriptors of expressions

An expression is checked within a chain of scopes.  The check finds its descriptor and
all diagnostics about it, in the order of the text.  An expression at fault has the
descriptor `undefined`, and an operation on something undefined is undefined itself
without a further diagnostic.
-/

namespace MatrixScript

namespace Expr

open Checked

/-- What a variable means; an unknown one may be a misspelling of a known one. -/
def checkVariable (chain : ScopeChain) (name : String) (span : Span) : Checked Descriptor :=
  match chain.get? name with
  | some descriptor => pure descriptor
  | none =>
      ⟨Descriptor.undefined.named name,
        [⟨.undefinedVariable name, span, suggestion? name chain.visibleNames⟩]⟩

/-- The diagnostics about literal coordinates outside their dimensions. -/
def outOfBounds : List Expr → Shape → List Diagnostic
  | .int span index :: coordinates, size :: shape =>
      if size.excludes index then
        ⟨.outOfBounds index size, span, none⟩ :: outOfBounds coordinates shape
      else outOfBounds coordinates shape
  | _ :: coordinates, _ :: shape => outOfBounds coordinates shape
  | _, _ => []

/-- What a reference with integer coordinates selects from an array of a given shape. -/
def selected (shape : Shape) (count : Nat) : Descriptor :=
  if count = shape.length then .scalar .float
  else .vector (shape.getLast?.getD .unbounded)

/-- A reference whose coordinates are integers. -/
def checkSelection (shape : Shape) (coordinates : List Expr) : Checked Descriptor :=
  match outOfBounds coordinates shape with
  | [] => pure (selected shape coordinates.length)
  | diagnostics => ⟨.undefined, diagnostics⟩

/-- The size that an argument of a matrix constructor gives to a dimension. -/
def sizeOfArgument (argument : Expr) : Dim :=
  match argument.literal? with
  | some size => if size < 0 then .unbounded else .known size.toInt.toNat
  | none => .unbounded

/-- A matrix constructor whose arguments are integers. -/
def checkConstructor (span : Span) (builtin : Builtin) (arguments : List Expr) :
    Checked Descriptor :=
  match arguments.map sizeOfArgument with
  | [size] => pure (.matrix size size)
  | [rows, columns] => pure (.matrix rows columns)
  | sizes => refuse (.arity builtin sizes.length) span

/-- An arithmetic operation on checked operands. -/
def checkBinary (span : Span) (op : BinaryOp) (left right : Descriptor) : Checked Descriptor :=
  if left.isUndefined || right.isUndefined then pure .undefined
  else
    match Signature.binary op left.ty right.ty with
    | none => refuse (.cannotCombine op left.ty right.ty) span
    | some ty =>
        match Signature.shape? op left right with
        | none => refuse (.shapeMismatch left.shape right.shape) span
        | some shape => pure (.of ty shape)

/-- A comparison of checked operands. -/
def checkComparison (span : Span) (op : Comparison) (left right : Descriptor) :
    Checked Descriptor :=
  if left.isUndefined || right.isUndefined then pure .undefined
  else
    match Signature.comparison left.ty right.ty with
    | none => refuse (.cannotCompare op left.ty right.ty) span
    | some ty => pure (.scalar ty)

/-- A unary operation on a checked operand. -/
def checkUnary (span : Span) (op : UnaryOp) (operand : Descriptor) : Checked Descriptor :=
  if operand.isUndefined then pure operand
  else
    match Signature.unary op operand.ty with
    | none => refuse (.cannotApply op operand.ty) span
    | some ty =>
        match op with
        | .negate => pure (.of ty operand.shape)
        | .transpose => pure (.of ty operand.shape.reverse)

/-- All rows of a matrix literal have as many elements as the first. -/
def checkRows (span : Span) (rows : List Row) : Checked Descriptor :=
  let width := (rows.head?.map fun row => row.cells.length).getD 0
  if rows.all fun row => row.cells.length == width then
    pure (.matrix (.known rows.length) (.known width))
  else
    refuse .raggedMatrix span

end Expr

open Checked

mutual

/-- The descriptor of an expression. -/
def Expr.check (chain : ScopeChain) : Expr → Checked Descriptor
  | .int _ _ => pure (.scalar .int)
  | .float _ _ => pure (.scalar .float)
  | .string _ _ => pure (.scalar .string)
  | .var span name => Expr.checkVariable chain name span
  | .vector _ elements => do
      Expr.checkAll chain elements
      pure (.vector (.known elements.length))
  | .matrix span rows => do
      Row.checkAll chain rows
      Expr.checkRows span rows
  | .reference span name coordinates => do
      let container ← Expr.checkVariable chain name.item name.span
      if container.isUndefined then pure .undefined
      else if container.shape.length < coordinates.length then refuse .tooManyCoordinates span
      else do
        let sound ← Expr.checkCoordinates chain coordinates
        if sound then Expr.checkSelection container.shape coordinates else pure .undefined
  | .call span builtin arguments => do
      let sound ← Expr.checkSizes chain arguments
      if sound then Expr.checkConstructor span builtin arguments else pure .undefined
  | .binary span left op right => do
      let first ← left.check chain
      let second ← right.check chain
      Expr.checkBinary span op first second
  | .compare span left op right => do
      let first ← left.check chain
      let second ← right.check chain
      Expr.checkComparison span op first second
  | .unary span op operand => do
      let descriptor ← operand.check chain
      Expr.checkUnary span op descriptor

/-- Check expressions in order. -/
def Expr.checkAll (chain : ScopeChain) : List Expr → Checked Unit
  | [] => pure ()
  | head :: tail => do
      let _ ← head.check chain
      Expr.checkAll chain tail

/-- Check the elements of matrix rows in order. -/
def Row.checkAll (chain : ScopeChain) : List Row → Checked Unit
  | [] => pure ()
  | .mk _ cells :: tail => do
      Expr.checkAll chain cells
      Row.checkAll chain tail

/-- Check all coordinates of a reference; yields whether every one is an integer. -/
def Expr.checkCoordinates (chain : ScopeChain) : List Expr → Checked Bool
  | [] => pure true
  | head :: tail => do
      let descriptor ← head.check chain
      if descriptor.isUndefined then do
        let _ ← Expr.checkCoordinates chain tail
        pure false
      else if descriptor.ty = .int then Expr.checkCoordinates chain tail
      else do
        complain (.coordinateType descriptor.ty) head.span
        let _ ← Expr.checkCoordinates chain tail
        pure false

/-- Check the arguments of a constructor up to the first that is no integer. -/
def Expr.checkSizes (chain : ScopeChain) : List Expr → Checked Bool
  | [] => pure true
  | head :: tail => do
      let descriptor ← head.check chain
      if descriptor.isUndefined then pure false
      else if descriptor.ty = .int then Expr.checkSizes chain tail
      else do
        complain (.sizeType descriptor.ty) head.span
        pure false

end

end MatrixScript
