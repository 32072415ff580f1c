import MatrixScript.Proofs.Slots

/-!
# Forms of values

Numbers are of one form, whether they are integers or floats, and vectors are of one form
whatever their lengths.  A value of the form of a matrix has rows that are all as long; one
that only resembles a matrix has rows of any lengths.

Where an operator accepts two types, it takes values of their forms to a value of the form
of the result.  There is one exception: the product of two vectors is a number, but the
product of two arrays without members is taken for a product of matrices and is an
array again.
-/

namespace MatrixScript

namespace Value

/-- The value is of the form of the type. -/
def HasForm : Ty → Value → Prop
  | .int, value => value.IsNumber
  | .float, value => value.IsNumber
  | .string, value => ∃ content, value = .string content
  | .vector, value => value.VectorOf fun _ => True
  | .matrix, value => ∃ width, value.MatrixOf (fun _ => True) (· = width)
  | .undefined, _ => False

/-- An array holds numbers, or arrays of numbers that are all as long. -/
def Rectangular : Value → Prop
  | .array items =>
      (∀ item ∈ items, item.IsNumber) ∨ ∃ width, ∀ item ∈ items, item.VectorOf (· = width)
  | _ => True

/-- The value is of the form of the type, but for the lengths of rows. -/
def Resembles : Ty → Value → Prop
  | .int, value => value.IsNumber
  | .float, value => value.IsNumber
  | .string, value => ∃ content, value = .string content
  | .vector, value => value.VectorOf fun _ => True
  | .matrix, value => value.MatrixOf (fun _ => True) fun _ => True
  | .undefined, _ => False

instance (ty : Ty) (value : Value) : Decidable (value.Resembles ty) :=
  match ty, value with
  | .int, value | .float, value => inferInstanceAs (Decidable value.IsNumber)
  | .string, .string content => isTrue ⟨content, rfl⟩
  | .string, .int _ | .string, .float _ | .string, .array _ => isFalse (by rintro ⟨_, ⟨⟩⟩)
  | .vector, value => inferInstanceAs (Decidable (value.VectorOf fun _ => True))
  | .matrix, value =>
      inferInstanceAs (Decidable (value.MatrixOf (fun _ => True) fun _ => True))
  | .undefined, _ => isFalse id

/-- An array of arrays that is rectangular has rows of one length. -/
theorem Resembles.hasForm {ty : Ty} {value : Value} (resembles : value.Resembles ty)
    (rectangular : value.Rectangular) : value.HasForm ty := by
  cases ty with
  | matrix =>
      have rows : value.MatrixOf (fun _ => True) fun _ => True := resembles
      rcases rows.exists_items with ⟨items, rfl, rows, _⟩
      rcases rectangular with numbers | ⟨width, even⟩
      -- A member that is both a number and a row does not exist, and so there is none.
      · refine ⟨0, ?_, trivial⟩
        intro item member
        rcases (rows item member).exists_items with ⟨_, rfl, _⟩
        exact (numbers _ member).elim
      · exact ⟨width, even, trivial⟩
  | _ => exact resembles

namespace HasForm

variable {ty : Ty} {value : Value}

theorem rectangular (has : value.HasForm ty) : value.Rectangular := by
  cases value with
  | array items =>
      cases ty with
      | int => exact has.elim
      | float => exact has.elim
      | string =>
          rcases has with ⟨content, impossible⟩
          cases impossible
      | vector => exact .inl has.1
      | matrix =>
          rcases has with ⟨width, rows, _⟩
          exact .inr ⟨width, rows⟩
      | undefined => exact has.elim
  | _ => trivial

theorem isNumber (has : value.HasForm ty) (numeric : ty.isNumeric = true) : value.IsNumber := by
  rcases Ty.isNumeric_iff.mp numeric with rfl | rfl
  · exact has
  · exact has

theorem of_isNumber (number : value.IsNumber) (numeric : ty.isNumeric = true) :
    value.HasForm ty := by
  rcases Ty.isNumeric_iff.mp numeric with rfl | rfl
  · exact number
  · exact number

theorem vectorOf (has : value.HasForm .vector) : value.VectorOf fun _ => True := has

theorem exists_items (has : value.HasForm ty) (aggregate : ty.isAggregate = true) :
    ∃ items, value = .array items := by
  rcases Ty.isAggregate_iff.mp aggregate with rfl | rfl
  · rcases has.vectorOf.exists_items with ⟨items, same, _⟩
    exact ⟨items, same⟩
  · rcases has with ⟨width, matrix⟩
    rcases matrix.exists_items with ⟨items, same, _⟩
    exact ⟨items, same⟩

/-- The sizes of a matrix; one without rows may be taken to have no columns. -/
theorem exists_sizes (has : value.HasForm .matrix) :
    ∃ height width, value.MatrixOf (· = height) (· = width) ∧ (0 = height → 0 = width) := by
  rcases has with ⟨width, matrix⟩
  rcases matrix.exists_items with ⟨items, rfl, rows, _⟩
  cases items with
  | nil =>
      refine ⟨0, 0, ⟨?_, rfl⟩, fun none => none⟩
      intro row member
      cases member
  | cons first rest =>
      refine ⟨_, width, ⟨rows, rfl⟩, ?_⟩
      intro impossible
      cases impossible

/-- An array is a vector, or a matrix with rows of one length. -/
theorem nested_iff (aggregate : ty.isAggregate = true) :
    value.HasForm ty ↔ ∃ width, value.Nested (· = width) ty := by
  rcases Ty.isAggregate_iff.mp aggregate with rfl | rfl
  · exact ⟨fun has => ⟨0, has⟩, fun ⟨_, has⟩ => has⟩
  · exact Iff.rfl

end HasForm

/-! ## Operators -/

theorem mapLeaves_hasForm {change : Value → Except Fault Value} {ty : Ty} {value : Value}
    (leaves : ∀ leaf, leaf.IsNumber → Gives IsNumber (change leaf))
    (aggregate : ty.isAggregate = true) (has : value.HasForm ty) :
    Gives (HasForm ty) (mapLeaves change value) := by
  rcases Ty.isAggregate_iff.mp aggregate with rfl | rfl
  · exact mapLeaves_vector_yields leaves has.vectorOf
  · rcases has with ⟨width, matrix⟩
    exact (mapLeaves_matrix_yields leaves matrix).weaken fun _ changed => ⟨width, changed⟩

section Combinations

variable {op : BinaryOp} {left right result : Descriptor} {first second : Value}

/-- Two vectors or two matrices, place by place. -/
theorem elementwise_hasForm {ty : Ty} (aggregate : ty.isAggregate = true)
    (firstHas : first.HasForm ty) (secondHas : second.HasForm ty) (arith : Arith) :
    Gives (HasForm ty) (elementwise arith first second) := by
  rcases Ty.isAggregate_iff.mp aggregate with rfl | rfl
  · have places : Gives _ (elementwise arith first second) :=
      elementwise_yields (fun _ _ => elementwise_number_yields trivial arith) (.inr trivial)
        firstHas.vectorOf secondHas.vectorOf
    exact places.weaken fun _ vector => vector.weaken (fun _ number => number) fun _ _ => trivial
  · rcases firstHas with ⟨width, firstMatrix⟩
    rcases secondHas with ⟨_, secondMatrix⟩
    have places : Gives _ (elementwise arith first second) :=
      elementwise_yields
        (fun _ _ => elementwise_yields
          (fun _ _ => elementwise_number_yields trivial arith) (.inr trivial))
        (.inr trivial) firstMatrix secondMatrix
    refine places.weaken fun _ matrix => ⟨width, matrix.weaken ?_ fun _ _ => trivial⟩
    intro row vector
    exact vector.weaken (fun _ number => number) fun _ both => both.1

theorem arrayProduct_hasForm (firstHas : first.HasForm .matrix)
    (secondHas : second.HasForm .matrix) :
    Gives (HasForm .matrix) (arrayProduct first second) := by
  rcases firstHas with ⟨inner, firstMatrix⟩
  rcases secondHas.exists_sizes with ⟨height, width, secondMatrix, noRows⟩
  rw [arrayProduct_matrices firstMatrix secondMatrix]
  have regular : ∀ one other : Nat, one = width → other = width → one = other := by
    rintro _ _ rfl rfl
    rfl
  have products : Gives _ (matrixProduct first second) :=
    matrixProduct_yields (.inr trivial) (.inl regular) noRows firstMatrix secondMatrix
  exact products.weaken fun _ matrix => ⟨width, matrix⟩

/-- Values of the forms of the operands give a value of the form of the result. -/
theorem binary_hasForm (combination : Signature.Combination op left right result)
    (notEmpty : ¬ (op = .plain .mul ∧ first = .array [] ∧ second = .array []))
    (firstHas : first.HasForm left.ty) (secondHas : second.HasForm right.ty) :
    Gives (HasForm result.ty) (binary op first second) := by
  cases combination with
  | integers whole leftInt rightInt =>
      have firstNumber := firstHas.isNumber (by rw [leftInt]; rfl)
      have secondNumber := secondHas.isNumber (by rw [rightInt]; rfl)
      rw [binary_numbers firstNumber secondNumber]
      exact scalar_yields (fun _ => trivial) firstNumber secondNumber
  | numbers leftNumeric rightNumeric =>
      have firstNumber := firstHas.isNumber leftNumeric
      have secondNumber := secondHas.isNumber rightNumeric
      rw [binary_numbers firstNumber secondNumber]
      exact scalar_yields (fun _ => trivial) firstNumber secondNumber
  | texts leftString rightString =>
      rw [leftString] at firstHas
      rw [rightString] at secondHas
      rcases firstHas with ⟨firstContent, rfl⟩
      rcases secondHas with ⟨secondContent, rfl⟩
      exact ⟨firstContent ++ secondContent, rfl⟩
  | vectorPlaces byPlace fit =>
      have places := elementwise_hasForm rfl firstHas secondHas op.arith
      rcases firstHas.exists_items rfl with ⟨firsts, rfl⟩
      rcases secondHas.exists_items rfl with ⟨seconds, rfl⟩
      rw [binary_places byPlace]
      exact places
  | matrixPlaces byPlace rowsFit columnsFit =>
      have places := elementwise_hasForm rfl firstHas secondHas op.arith
      rcases firstHas.exists_items rfl with ⟨firsts, rfl⟩
      rcases secondHas.exists_items rfl with ⟨seconds, rfl⟩
      rw [binary_places byPlace]
      exact places
  | dot fit =>
      rcases firstHas.vectorOf.exists_items with ⟨firsts, rfl, firstNumbers, _⟩
      rcases secondHas.vectorOf.exists_items with ⟨seconds, rfl, secondNumbers, _⟩
      have firstVector : (Value.array firsts).VectorOf (· = firsts.length) :=
        ⟨firstNumbers, rfl⟩
      have secondVector : (Value.array seconds).VectorOf (· = seconds.length) :=
        ⟨secondNumbers, rfl⟩
      apply arrayProduct_vectors_yields (.inr trivial) ?_ firstVector secondVector
      rintro ⟨noFirsts, noSeconds⟩
      cases List.length_eq_zero_iff.mp noFirsts.symm
      cases List.length_eq_zero_iff.mp noSeconds.symm
      exact notEmpty ⟨rfl, rfl, rfl⟩
  | product fit =>
      have products := arrayProduct_hasForm firstHas secondHas
      rcases firstHas.exists_items rfl with ⟨firsts, rfl⟩
      rcases secondHas.exists_items rfl with ⟨seconds, rfl⟩
      exact products
  | arrayByNumber scales aggregate numeric =>
      have number := secondHas.isNumber numeric
      rcases firstHas.exists_items aggregate with ⟨items, rfl⟩
      rw [binary_array_number scales number]
      apply mapLeaves_hasForm ?_ aggregate firstHas
      intro leaf leafNumber
      exact scalar_yields (fun _ => trivial) leafNumber number
  | numberByArray numeric aggregate =>
      have number := firstHas.isNumber numeric
      rcases secondHas.exists_items aggregate with ⟨items, rfl⟩
      rw [binary_number_array number]
      apply mapLeaves_hasForm ?_ aggregate secondHas
      intro leaf leafNumber
      exact scalar_yields (fun _ => trivial) number leafNumber

/-- An operator that takes a vector to a vector keeps its length. -/
theorem binary_vector {lengths : Nat → Prop}
    (combination : Signature.Combination op left right result) (leftVector : left.ty = .vector)
    (resultVector : result.ty = .vector) (firstVector : first.VectorOf lengths)
    (secondHas : second.HasForm right.ty) :
    Gives (VectorOf lengths) (binary op first second) := by
  rcases firstVector.exists_items with ⟨firsts, rfl, _⟩
  cases combination with
  | integers => cases resultVector
  | numbers => cases resultVector
  | texts => cases resultVector
  | vectorPlaces byPlace fit =>
      have places : Gives _ (elementwise op.arith (.array firsts) second) :=
        elementwise_yields (fun _ _ => elementwise_number_yields trivial op.arith)
          (.inr trivial) firstVector secondHas.vectorOf
      rcases secondHas.exists_items rfl with ⟨seconds, rfl⟩
      rw [binary_places byPlace]
      exact places.weaken fun _ vector =>
        vector.weaken (fun _ number => number) fun _ both => both.1
  | matrixPlaces => cases leftVector
  | dot => cases resultVector
  | product => cases leftVector
  | arrayByNumber scales aggregate numeric =>
      have number := secondHas.isNumber numeric
      rw [binary_array_number scales number]
      apply mapLeaves_vector_yields ?_ firstVector
      intro leaf leafNumber
      exact scalar_yields (fun _ => trivial) leafNumber number
  | numberByArray numeric aggregate =>
      rw [leftVector] at numeric
      cases numeric

end Combinations

theorem negate_isNumber {value : Value} : Gives IsNumber (negate value) := by
  cases value <;> trivial

theorem compare_isNumber {op : Comparison} {first second : Value} :
    Gives IsNumber (compare op first second) := by
  unfold compare
  cases order first second <;> trivial

theorem transpose_hasForm {value : Value} (has : value.HasForm .matrix) :
    Gives (HasForm .matrix) (transpose value) := by
  rcases has.exists_sizes with ⟨height, width, matrix, noRows⟩
  have regular : ∀ one other : Nat, one = width → other = width → one = other := by
    rintro _ _ rfl rfl
    rfl
  refine (transpose_yields (.inl regular) noRows matrix).weaken fun _ transposed => ⟨height, ?_⟩
  exact transposed.weaken (fun _ row => row) fun _ _ => trivial

/-! ## Parts of arrays -/

variable {container : Descriptor} {value new : Value} {places : List Int64}

/-- What a list of coordinates selects from an array. -/
theorem read_hasForm (proper : container.Formed fun _ => True) (some : places ≠ [])
    (few : places.length ≤ container.shape.length) (has : value.HasForm container.ty) :
    Gives (HasForm (Expr.selected container.shape places.length).ty) (value.read places) := by
  rcases places with _ | ⟨place, places⟩
  · exact absurd rfl some
  cases proper with
  | int => simp at few
  | float => simp at few
  | string => simp at few
  | vector name _ =>
      rcases places with _ | ⟨second, places⟩
      · exact Yields.bind (element_yields (.inl trivial) has.vectorOf) fun item number => number
      · simp at few
  | matrix name _ _ =>
      rcases has with ⟨width, matrix⟩
      apply Yields.bind (element_yields (.inl trivial) matrix)
      intro row vector
      rcases places with _ | ⟨second, _ | ⟨third, places⟩⟩
      · exact vector.weaken (fun _ number => number) fun _ _ => trivial
      · exact Yields.bind (element_yields (.inl trivial) vector) fun item number => number
      · simp at few

/-- What a matrix constructor builds, of whatever sizes. -/
theorem build_hasForm (builtin : Builtin) (sizes : List Int64) :
    Gives (HasForm .matrix) (builtin.build sizes) := by
  have grid (rows columns : Nat) : (builtin.grid rows columns).HasForm .matrix :=
    ⟨columns, Precision.grid_matrix builtin trivial rfl⟩
  have dimension (size : Int64) : Gives (fun _ => True) (builtin.dimension size) := by
    cases builtin.dimension size <;> trivial
  unfold Builtin.build
  split
  · exact Yields.bind (dimension _) fun rows _ => grid rows rows
  · apply Yields.bind (dimension _)
    intro rows _
    exact Yields.bind (dimension _) fun columns _ => grid rows columns
  · trivial

end Value

end MatrixScript
