import Mathlib.Data.List.Forall2
import MatrixScript.Builtin
import MatrixScript.Proofs.Expr.Acceptance
import MatrixScript.Proofs.Value.Products

/-!
# How far a descriptor describes a value

A descriptor can be read in two ways.  Read exactly, every dimension is a known
positive size and the value has just these sizes.  Read loosely, the type fixes how
a value is nested and the dimensions say nothing about it.

`Precision.Fits` relates descriptors to values in both readings, and
`Precision.Allows` says which kinds of faults a reading leaves open.  Every operation
on values that fit their descriptors yields a value that fits the descriptor
of the result.
-/

namespace MatrixScript

/-- How much the dimensions of a descriptor say about a value: everything or nothing. -/
inductive Precision where
  | exact
  | loose
deriving DecidableEq

/-- The dimension is a known size other than zero. -/
def Dim.Positive : Dim → Prop
  | .known size => 0 < size
  | .unbounded => False

namespace Precision

/-- The dimensions that occur in descriptors. -/
def Dims : Precision → Dim → Prop
  | .exact => Dim.Positive
  | .loose => fun _ => True

/-- The lengths that a dimension leaves open. -/
def Admits : Precision → Dim → Nat → Prop
  | .exact => fun dim length => dim = .known length ∧ 0 < length
  | .loose => fun _ _ => True

/-- The value is of the type, and has the sizes as far as they count. -/
inductive Fits (precision : Precision) : Descriptor → Value → Prop where
  | int {name : String} {number : Int64} : Fits precision ⟨.int, [], name⟩ (.int number)
  | float {name : String} {value : Value} (number : value.IsNumber) :
      Fits precision ⟨.float, [], name⟩ value
  | string {name content : String} : Fits precision ⟨.string, [], name⟩ (.string content)
  | vector {length : Dim} {name : String} {value : Value}
      (vector : value.VectorOf (precision.Admits length)) :
      Fits precision ⟨.vector, [length], name⟩ value
  | matrix {rows columns : Dim} {name : String} {value : Value}
      (matrix : value.MatrixOf (precision.Admits rows) (precision.Admits columns)) :
      Fits precision ⟨.matrix, [rows, columns], name⟩ value

/--
The kinds of faults left open.  In the exact reading an index can only be out of bounds
where it is computed, which is what `computed` stands for.
-/
def Allows (precision : Precision) (computed : Prop) : FaultKind → Prop
  | .divisionByZero => True
  | .indexOutOfBounds => precision = .loose ∨ computed
  | .shapeMismatch | .invalidArgument => precision = .loose
  | .typeError | .undefinedVariable => False

variable {precision : Precision} {computed : Prop}

/-! ## Lengths -/

theorem exact_agree {first second : Dim} (fit : first.compatible second = true)
    (left right : Nat) (leftIs : exact.Admits first left)
    (rightIs : exact.Admits second right) : left = right := by
  rcases leftIs with ⟨rfl, _⟩
  rcases rightIs with ⟨rfl, _⟩
  simpa [Dim.compatible] using fit

theorem exact_nonempty (dim : Dim) : ¬ exact.Admits dim 0 := by
  rintro ⟨_, positive⟩
  exact Nat.lt_irrefl 0 positive

theorem admits_agree {first second : Dim} (fit : first.compatible second = true) :
    (∀ left right, precision.Admits first left → precision.Admits second right →
      left = right) ∨ precision.Allows computed .shapeMismatch := by
  cases precision with
  | loose => exact .inr rfl
  | exact => exact .inl (exact_agree fit)

theorem admits_unique (dim : Dim) :
    (∀ left right, precision.Admits dim left → precision.Admits dim right →
      left = right) ∨ precision.Allows computed .shapeMismatch := by
  apply admits_agree
  cases dim <;> simp [Dim.compatible]

theorem admits_orElse {first second : Dim} {length : Nat}
    (both : precision.Admits first length ∧ precision.Admits second length) :
    precision.Admits (first.orElse second) length := by
  cases precision with
  | loose => trivial
  | exact =>
      rcases both with ⟨⟨rfl, positive⟩, _⟩
      exact ⟨rfl, positive⟩

/-- Only the loose reading has arrays without members, and it has all of them. -/
theorem admits_zero {first second : Dim} (empty : precision.Admits first 0) :
    precision.Admits second 0 := by
  cases precision with
  | loose => trivial
  | exact => exact absurd empty (exact_nonempty first)

/-! ## Values that fit -/

namespace Fits

variable {descriptor : Descriptor} {value : Value}

theorem isNumber (fits : precision.Fits descriptor value)
    (numeric : descriptor.ty.isNumeric = true) : value.IsNumber := by
  cases fits with
  | int => trivial
  | float number => exact number
  | string => simp [Ty.isNumeric] at numeric
  | vector => simp [Ty.isNumeric] at numeric
  | matrix => simp [Ty.isNumeric] at numeric

theorem exists_int (fits : precision.Fits descriptor value) (isInt : descriptor.ty = .int) :
    ∃ number, value = .int number := by
  cases fits <;> cases isInt
  exact ⟨_, rfl⟩

theorem exists_string (fits : precision.Fits descriptor value)
    (isString : descriptor.ty = .string) : ∃ content, value = .string content := by
  cases fits <;> cases isString
  exact ⟨_, rfl⟩

theorem exists_items (fits : precision.Fits descriptor value)
    (aggregate : descriptor.ty.isAggregate = true) : ∃ items, value = .array items := by
  cases fits with
  | int => simp [Ty.isAggregate] at aggregate
  | float => simp [Ty.isAggregate] at aggregate
  | string => simp [Ty.isAggregate] at aggregate
  | vector vector =>
      rcases vector.exists_items with ⟨items, rfl, _⟩
      exact ⟨items, rfl⟩
  | matrix matrix =>
      rcases matrix.exists_items with ⟨items, rfl, _⟩
      exact ⟨items, rfl⟩

end Fits

/-! ## Operators -/

theorem mapLeaves_fits {change : Value → Except Fault Value} {descriptor : Descriptor}
    {value : Value}
    (leaves : ∀ leaf, leaf.IsNumber →
      Yields (precision.Allows computed) Value.IsNumber (change leaf))
    (aggregate : descriptor.ty.isAggregate = true)
    (fits : precision.Fits descriptor value) :
    Yields (precision.Allows computed)
      (precision.Fits (.of descriptor.ty descriptor.shape))
      (Value.mapLeaves change value) := by
  cases fits with
  | int => simp [Ty.isAggregate] at aggregate
  | float => simp [Ty.isAggregate] at aggregate
  | string => simp [Ty.isAggregate] at aggregate
  | vector vector => exact (Value.mapLeaves_vector_yields leaves vector).weaken fun _ => .vector
  | matrix matrix => exact (Value.mapLeaves_matrix_yields leaves matrix).weaken fun _ => .matrix

/-- A binary operator on values that fit a combination of descriptors. -/
theorem binary_fits {op : BinaryOp} {left right result : Descriptor} {first second : Value}
    (combination : Signature.Combination op left right result)
    (noDot : precision = .loose →
      ¬ (op = .plain .mul ∧ left.ty = .vector ∧ right.ty = .vector))
    (leftFits : precision.Fits left first) (rightFits : precision.Fits right second) :
    Yields (precision.Allows computed) (precision.Fits result)
      (Value.binary op first second) := by
  have division : precision.Allows computed .divisionByZero := trivial
  cases combination with
  | @integers arith _ _ whole leftInt rightInt =>
      rcases leftFits.exists_int leftInt with ⟨leftNumber, rfl⟩
      rcases rightFits.exists_int rightInt with ⟨rightNumber, rfl⟩
      cases arith with
      | add => exact .int
      | sub => exact .int
      | mul => exact .int
      | div => exact absurd rfl whole
  | numbers leftNumeric rightNumeric =>
      have leftNumber := leftFits.isNumber leftNumeric
      have rightNumber := rightFits.isNumber rightNumeric
      rw [Value.binary_numbers leftNumber rightNumber]
      exact (Value.scalar_yields (fun _ => division) leftNumber rightNumber).weaken fun _ => .float
  | texts leftString rightString =>
      rcases leftFits.exists_string leftString with ⟨leftContent, rfl⟩
      rcases rightFits.exists_string rightString with ⟨rightContent, rfl⟩
      exact .string
  | vectorPlaces byPlace fit =>
      rcases leftFits with _ | _ | _ | leftVector
      rcases rightFits with _ | _ | _ | rightVector
      rcases leftVector.exists_items with ⟨lefts, rfl, _⟩
      rcases rightVector.exists_items with ⟨rights, rfl, _⟩
      rw [Value.binary_places byPlace]
      have sums := Value.elementwise_yields
        (fun _ _ => Value.elementwise_number_yields division op.arith)
        (admits_agree fit) leftVector rightVector
      refine sums.weaken fun value vector => .vector ?_
      exact vector.weaken (fun _ number => number) fun _ => admits_orElse
  | matrixPlaces byPlace rowsFit columnsFit =>
      rcases leftFits with _ | _ | _ | _ | leftMatrix
      rcases rightFits with _ | _ | _ | _ | rightMatrix
      rcases leftMatrix.exists_items with ⟨lefts, rfl, _⟩
      rcases rightMatrix.exists_items with ⟨rights, rfl, _⟩
      rw [Value.binary_places byPlace]
      have sums := Value.elementwise_yields
        (fun _ _ => Value.elementwise_yields
          (fun _ _ => Value.elementwise_number_yields division op.arith)
          (admits_agree columnsFit))
        (admits_agree rowsFit) leftMatrix rightMatrix
      refine sums.weaken fun value matrix => .matrix ?_
      refine matrix.weaken (fun row vector => ?_) fun _ => admits_orElse
      exact vector.weaken (fun _ number => number) fun _ => admits_orElse
  | dot fit =>
      rcases leftFits with _ | _ | _ | leftVector
      rcases rightFits with _ | _ | _ | rightVector
      cases precision with
      | loose => exact absurd ⟨rfl, rfl, rfl⟩ (noDot rfl)
      | exact =>
          rcases leftVector.exists_items with ⟨lefts, rfl, _⟩
          rcases rightVector.exists_items with ⟨rights, rfl, _⟩
          have sum : Yields (exact.Allows computed) Value.IsNumber
              (Value.arrayProduct (.array lefts) (.array rights)) :=
            Value.arrayProduct_vectors_yields (.inl (exact_agree fit))
              (fun empty => exact_nonempty _ empty.1) leftVector rightVector
          exact sum.weaken fun _ => .float
  | product fit =>
      rcases leftFits with _ | _ | _ | _ | leftMatrix
      rcases rightFits with _ | _ | _ | _ | rightMatrix
      have products : Yields (precision.Allows computed) _ (Value.matrixProduct first second) :=
        Value.matrixProduct_yields (admits_agree fit) (admits_unique _) admits_zero leftMatrix
          rightMatrix
      rw [← Value.arrayProduct_matrices leftMatrix rightMatrix] at products
      rcases leftMatrix.exists_items with ⟨lefts, rfl, _⟩
      rcases rightMatrix.exists_items with ⟨rights, rfl, _⟩
      exact products.weaken fun _ => .matrix
  | arrayByNumber scales aggregate numeric =>
      have number := rightFits.isNumber numeric
      rcases leftFits.exists_items aggregate with ⟨items, rfl⟩
      rw [Value.binary_array_number scales number]
      exact mapLeaves_fits
        (fun _ leafNumber => Value.scalar_yields (fun _ => division) leafNumber number)
        aggregate leftFits
  | numberByArray numeric aggregate =>
      have number := leftFits.isNumber numeric
      rcases rightFits.exists_items aggregate with ⟨items, rfl⟩
      rw [Value.binary_number_array number]
      exact mapLeaves_fits
        (fun _ leafNumber => Value.scalar_yields (fun _ => division) number leafNumber)
        aggregate rightFits

theorem negate_fits {descriptor : Descriptor} {value : Value}
    (numeric : descriptor.ty.isNumeric = true) (fits : precision.Fits descriptor value) :
    Yields (precision.Allows computed) (precision.Fits (.scalar descriptor.ty))
      (Value.negate value) := by
  cases fits with
  | int => exact .int
  | float number =>
      cases value with
      | int value => exact .float trivial
      | float value => exact .float trivial
      | string content => exact number.elim
      | array items => exact number.elim
  | string => simp [Ty.isNumeric] at numeric
  | vector => simp [Ty.isNumeric] at numeric
  | matrix => simp [Ty.isNumeric] at numeric

theorem transpose_fits {rows columns : Dim} {name : String} {value : Value}
    (fits : precision.Fits ⟨.matrix, [rows, columns], name⟩ value) :
    Yields (precision.Allows computed) (precision.Fits (.matrix columns rows))
      (Value.transpose value) := by
  cases fits with
  | matrix matrix =>
      exact (Value.transpose_yields (admits_unique columns) admits_zero matrix).weaken
        fun _ => .matrix

theorem compare_fits {op : Comparison} {left right : Descriptor} {first second : Value}
    (operands : (left.ty = .string ∧ right.ty = .string) ∨
      (left.ty.isNumeric = true ∧ right.ty.isNumeric = true))
    (leftFits : precision.Fits left first) (rightFits : precision.Fits right second) :
    Yields (precision.Allows computed) (precision.Fits (.scalar .int))
      (Value.compare op first second) := by
  rcases operands with ⟨leftString, rightString⟩ | ⟨leftNumeric, rightNumeric⟩
  · rcases leftFits.exists_string leftString with ⟨leftContent, rfl⟩
    rcases rightFits.exists_string rightString with ⟨rightContent, rfl⟩
    exact .int
  · have leftNumber := leftFits.isNumber leftNumeric
    have rightNumber := rightFits.isNumber rightNumeric
    rcases leftNumber.toFloat? with ⟨leftFloat, leftIs⟩
    rcases rightNumber.toFloat? with ⟨rightFloat, rightIs⟩
    have ordered : Value.order first second = .ok (compareFloats leftFloat rightFloat) := by
      unfold Value.order
      split
      · exact leftNumber.elim
      · rw [leftIs, rightIs]
    simp only [Value.compare, ordered, ok_bind]
    exact .int

end Precision

/-- The number is the one that the expression spells, if it is a literal. -/
def Expr.Denotes (expr : Expr) (number : Int64) : Prop :=
  ∀ literal, expr.literal? = some literal → number = literal

/-! ## References -/

theorem Value.element_yields {allowed : FaultKind → Prop} {member : Value → Prop}
    {lengths : Nat → Prop} {value : Value} {place : Int64}
    (inside : allowed .indexOutOfBounds ∨
      ∀ length : Nat, lengths length → 0 ≤ place.toInt ∧ place.toInt < length)
    (array : value.ArrayOf member lengths) :
    Yields allowed member (value.element place) := by
  rcases array.exists_items with ⟨items, rfl, members, lengthHas⟩
  simp only [Value.element]
  split
  · rename_i negative
    rcases inside with outsideAllowed | inside
    · exact outsideAllowed
    · rw [Int64.lt_iff_toInt_lt] at negative
      have := inside _ lengthHas
      simp at negative
      omega
  · split
    · rename_i item found
      exact members item (List.mem_of_getElem? found)
    · rename_i missing
      rcases inside with outsideAllowed | inside
      · exact outsideAllowed
      · have := inside _ lengthHas
        rw [List.getElem?_eq_none_iff] at missing
        omega

namespace Precision

variable {precision : Precision} {computed : Prop}

/-- A literal coordinate that passed the check lies inside an array of the exact size. -/
theorem inside_of_checked (precision : Precision) {size : Dim} {coordinate : Expr}
    {place : Int64} (denotes : coordinate.Denotes place)
    (checked : ∀ index, coordinate.literal? = some index → size.excludes index = false)
    (literal : coordinate.literal? = none → computed) :
    precision.Allows computed .indexOutOfBounds ∨
      ∀ length : Nat, precision.Admits size length →
        0 ≤ place.toInt ∧ place.toInt < length := by
  cases precision with
  | loose => exact .inl (.inl rfl)
  | exact =>
      cases spelled : coordinate.literal? with
      | none => exact .inl (.inr (literal spelled))
      | some index =>
          right
          rintro length ⟨rfl, _⟩
          have admitted := checked index spelled
          rw [denotes index spelled]
          simp [Dim.excludes] at admitted
          omega

/-- Reading the part of an array that a checked list of coordinates selects. -/
theorem read_fits {container : Descriptor} {value : Value} {coordinates : List Expr}
    {places : List Int64} (fits : precision.Fits container value)
    (some : coordinates ≠ []) (few : coordinates.length ≤ container.shape.length)
    (checked : Expr.outOfBounds coordinates container.shape = [])
    (literal : ∀ coordinate ∈ coordinates, coordinate.literal? = none → computed)
    (denote : List.Forall₂ Expr.Denotes coordinates places) :
    Yields (precision.Allows computed)
      (precision.Fits (Expr.selected container.shape coordinates.length))
      (value.read places) := by
  cases denote with
  | nil => exact absurd rfl some
  | @cons coordinate place coordinates places denotes rest =>
      simp only [List.forall_mem_cons] at literal
      cases fits with
      | int => simp at few
      | float => simp at few
      | string => simp at few
      | vector vector =>
          cases rest with
          | cons => simp at few
          | nil =>
              have inside := precision.inside_of_checked denotes
                (Expr.outOfBounds_cons checked).1 literal.1
              refine Yields.bind (Value.element_yields inside vector) ?_
              intro item number
              exact .float number
      | matrix matrix =>
          rcases Expr.outOfBounds_cons checked with ⟨firstChecked, restChecked⟩
          have inside := precision.inside_of_checked denotes firstChecked literal.1
          refine Yields.bind (Value.element_yields inside matrix) ?_
          intro row rowVector
          cases rest with
          | nil => exact .vector rowVector
          | @cons second secondPlace _ _ secondDenotes rest =>
              cases rest with
              | cons => simp at few
              | nil =>
                  simp only [List.forall_mem_cons] at literal
                  have secondInside := precision.inside_of_checked secondDenotes
                    (Expr.outOfBounds_cons restChecked).1 literal.2.1
                  refine Yields.bind (Value.element_yields secondInside rowVector) ?_
                  intro item number
                  exact .float number

/-! ## Constructors -/

theorem dimension_fits {builtin : Builtin} {argument : Expr} {size : Int64}
    (denotes : argument.Denotes size)
    (positive : precision = .exact → ∃ literal, argument.literal? = some literal ∧ 0 < literal) :
    Yields (precision.Allows computed) (precision.Admits (Expr.sizeOfArgument argument))
      (builtin.dimension size) := by
  unfold Builtin.dimension
  cases precision with
  | loose => split <;> trivial
  | exact =>
      rcases positive rfl with ⟨literal, spelled, above⟩
      rw [denotes literal spelled]
      rw [Int64.lt_iff_toInt_lt] at above
      have notNegative : ¬ literal < 0 := by
        rw [Int64.lt_iff_toInt_lt]
        omega
      rw [if_neg notNegative]
      refine ⟨by simp [Expr.sizeOfArgument, spelled, notNegative], ?_⟩
      simp at above
      omega

theorem grid_matrix (builtin : Builtin) {rows columns : Nat} {heights widths : Nat → Prop}
    (heightHas : heights rows) (widthHas : widths columns) :
    (builtin.grid rows columns).MatrixOf heights widths := by
  refine ⟨?_, by simpa using heightHas⟩
  intro row member
  rcases List.mem_map.mp member with ⟨_, _, rfl⟩
  refine ⟨?_, by simpa using widthHas⟩
  intro cell member
  rcases List.mem_map.mp member with ⟨_, _, rfl⟩
  trivial

theorem build_fits {span : Span} {builtin : Builtin} {arguments : List Expr}
    {sizes : List Int64}
    (clean : (Expr.checkConstructor span builtin arguments).diagnostics = [])
    (positive : precision = .exact → ∀ argument ∈ arguments,
      ∃ literal, argument.literal? = some literal ∧ 0 < literal)
    (denote : List.Forall₂ Expr.Denotes arguments sizes) :
    Yields (precision.Allows computed)
      (precision.Fits (Expr.checkConstructor span builtin arguments).result)
      (builtin.build sizes) := by
  rcases denote with _ | ⟨denotes, _ | ⟨secondDenotes, _ | _⟩⟩
  · simp [Expr.checkConstructor, Checked.refuse] at clean
  · refine Yields.bind (dimension_fits denotes fun reading => ?_) ?_
    · exact positive reading _ (by simp)
    · intro side sideHas
      exact .matrix (grid_matrix builtin sideHas sideHas)
  · refine Yields.bind (dimension_fits denotes fun reading => ?_) ?_
    · exact positive reading _ (by simp)
    · intro rows rowsHave
      refine Yields.bind (dimension_fits secondDenotes fun reading => ?_) ?_
      · exact positive reading _ (by simp)
      · intro columns columnsHave
        exact .matrix (grid_matrix builtin rowsHave columnsHave)
  · simp [Expr.checkConstructor, Checked.refuse] at clean

end Precision

end MatrixScript
