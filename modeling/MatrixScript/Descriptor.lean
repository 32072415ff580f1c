import MatrixScript.Ty
import MatrixScript.Shape

/-!
# Descriptors

A descriptor is what is known about an expression or a variable before the program
runs: its type, its shape and the name it came from.
-/

namespace MatrixScript

/-- The type and the shape of something; `name` is empty unless it is a variable. -/
structure Descriptor where
  ty : Ty
  shape : Shape
  name : String
deriving DecidableEq, Repr

namespace Descriptor

/-- A descriptor without name. -/
def of (ty : Ty) (shape : Shape) : Descriptor := ⟨ty, shape, ""⟩

/-- A scalar. -/
def scalar (ty : Ty) : Descriptor := of ty []

/-- A vector of a given length. -/
def vector (length : Dim) : Descriptor := of .vector [length]

/-- A matrix of given sizes. -/
def matrix (rows columns : Dim) : Descriptor := of .matrix [rows, columns]

/-- Something about which nothing is known. -/
def undefined : Descriptor := scalar .undefined

/-- The same descriptor for a variable of the given name. -/
def named (descriptor : Descriptor) (name : String) : Descriptor :=
  { descriptor with name := name }

/-- Nothing is known. -/
def isUndefined (descriptor : Descriptor) : Bool :=
  descriptor.ty == .undefined

/-- The descriptor in messages. -/
def text (descriptor : Descriptor) : String :=
  if descriptor.shape.isEmpty then descriptor.ty.text
  else descriptor.ty.text ++ descriptor.shape.text

end Descriptor

end MatrixScript
