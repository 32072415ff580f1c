import MatrixScript.Proofs.Value.Arrays

/-!
# Products and transposes

The dot product of vectors, the transpose of a matrix and the matrix product, again
for arbitrary choices of lengths.

An array without members is a vector and a matrix alike.  The transpose of a matrix
without rows is empty whatever its width was, so the statements here ask that a
choice of lengths which admits no rows also admits no columns.
-/

namespace MatrixScript.Value

variable {allowed : FaultKind → Prop} {heights widths : Nat → Prop}

/-! ## Shapes -/

theorem shape_vector {items : List Value} (numbers : ∀ item ∈ items, item.IsNumber) :
    (Value.array items).shape = [items.length] := by
  cases items with
  | nil => simp [shape]
  | cons first rest => simp [shape, (numbers first List.mem_cons_self).shape_eq]

theorem shape_matrix {first : Value} (rest : List Value)
    (firstVector : first.VectorOf widths) :
    ∃ width, (Value.array (first :: rest)).shape = [rest.length + 1, width] ∧
      widths width := by
  rcases firstVector.exists_items with ⟨cells, rfl, numbers, widthHas⟩
  refine ⟨cells.length, ?_, widthHas⟩
  rw [shape, shape_vector numbers]

theorem isMatrixLike_matrix {value : Value} (matrix : value.MatrixOf heights widths) :
    value.isMatrixLike = true := by
  rcases matrix.exists_items with ⟨items, rfl, rows, heightHas⟩
  cases items with
  | nil => simp [isMatrixLike, shape]
  | cons first rest =>
      rcases (rows first List.mem_cons_self).exists_items with ⟨cells, rfl, numbers, widthHas⟩
      simp [isMatrixLike, isMatrix, ty]

theorem isMatrix_vector {items : List Value} (numbers : ∀ item ∈ items, item.IsNumber) :
    (Value.array items).isMatrix = false := by
  cases items with
  | nil => rfl
  | cons first rest =>
      have firstNumber := numbers first List.mem_cons_self
      cases first with
      | int number => rfl
      | float number => rfl
      | string content => rfl
      | array inner => exact firstNumber.elim

/-- A vector may be taken for a matrix only if it has no members. -/
theorem isMatrixLike_vector {items : List Value} (numbers : ∀ item ∈ items, item.IsNumber) :
    (Value.array items).isMatrixLike = items.isEmpty := by
  rw [isMatrixLike, isMatrix_vector numbers, shape_vector numbers]
  cases items <;> rfl

/-! ## Dot products -/

/-- A sum of products of numbers never fails. -/
theorem addProducts_yields {sum : Value} {lefts rights : List Value} (sumNumber : sum.IsNumber)
    (leftNumbers : ∀ item ∈ lefts, item.IsNumber)
    (rightNumbers : ∀ item ∈ rights, item.IsNumber) :
    Yields allowed IsNumber (addProducts sum lefts rights) := by
  induction lefts generalizing sum rights with
  | nil => simpa [addProducts] using sumNumber
  | cons left lefts ih =>
      cases rights with
      | nil => simpa [addProducts] using sumNumber
      | cons right rights =>
          simp only [List.forall_mem_cons] at leftNumbers rightNumbers
          rw [addProducts]
          refine Yields.bind (scalar_yields (by rintro ⟨⟩) leftNumbers.1 rightNumbers.1) ?_
          intro product productNumber
          refine Yields.bind (scalar_yields (by rintro ⟨⟩) sumNumber productNumber) ?_
          intro next nextNumber
          exact ih nextNumber leftNumbers.2 rightNumbers.2

theorem innerProduct_yields {leftLengths rightLengths : Nat → Prop}
    (agree : (∀ first second, leftLengths first → rightLengths second → first = second) ∨
      allowed .shapeMismatch)
    {left right : Value} (leftVector : left.VectorOf leftLengths)
    (rightVector : right.VectorOf rightLengths) :
    Yields allowed IsNumber (innerProduct left right) := by
  rcases leftVector.exists_items with ⟨lefts, rfl, leftNumbers, leftLength⟩
  rcases rightVector.exists_items with ⟨rights, rfl, rightNumbers, rightLength⟩
  rw [innerProduct]
  split
  · exact addProducts_yields trivial leftNumbers rightNumbers
  · rename_i different
    rcases agree with agree | mismatchAllowed
    · exact absurd (agree _ _ leftLength rightLength) different
    · exact mismatchAllowed

/-- Two vectors have a dot product, unless both may be taken for matrices. -/
theorem arrayProduct_vectors {lefts rights : List Value}
    (leftNumbers : ∀ item ∈ lefts, item.IsNumber)
    (rightNumbers : ∀ item ∈ rights, item.IsNumber) (nonempty : ¬ (lefts = [] ∧ rights = [])) :
    arrayProduct (.array lefts) (.array rights) =
      dotProduct (.array lefts) (.array rights) := by
  have notMatrices : ((Value.array lefts).isMatrixLike &&
      (Value.array rights).isMatrixLike) = false := by
    rw [isMatrixLike_vector leftNumbers, isMatrixLike_vector rightNumbers,
      Bool.and_eq_false_iff, List.isEmpty_eq_false_iff, List.isEmpty_eq_false_iff]
    exact Decidable.not_and_iff_not_or_not.mp nonempty
  simp only [arrayProduct, notMatrices, Bool.false_eq_true, if_false,
    isMatrix_vector leftNumbers, isMatrix_vector rightNumbers, Bool.not_false,
    Bool.and_self, if_true]

theorem arrayProduct_vectors_yields {leftLengths rightLengths : Nat → Prop}
    (agree : (∀ first second, leftLengths first → rightLengths second → first = second) ∨
      allowed .shapeMismatch)
    (nonempty : ¬ (leftLengths 0 ∧ rightLengths 0))
    {left right : Value} (leftVector : left.VectorOf leftLengths)
    (rightVector : right.VectorOf rightLengths) :
    Yields allowed IsNumber (arrayProduct left right) := by
  rcases leftVector.exists_items with ⟨lefts, rfl, leftNumbers, leftLength⟩
  rcases rightVector.exists_items with ⟨rights, rfl, rightNumbers, rightLength⟩
  rw [arrayProduct_vectors leftNumbers rightNumbers]
  · have sumYields := innerProduct_yields agree leftVector rightVector
    exact Yields.bind sumYields fun sum sumNumber => trivial
  · rintro ⟨rfl, rfl⟩
    exact nonempty ⟨leftLength, rightLength⟩

/-! ## Transposes -/

theorem exists_rows {items : List Value} (vectors : ∀ item ∈ items, item.VectorOf widths) :
    ∃ rows : List (List Value), items = rows.map .array ∧
      ∀ row ∈ rows, (∀ cell ∈ row, cell.IsNumber) ∧ widths row.length := by
  induction items with
  | nil => exact ⟨[], rfl, by simp⟩
  | cons head tail ih =>
      simp only [List.forall_mem_cons] at vectors
      rcases vectors.1.exists_items with ⟨cells, rfl, numbers, widthHas⟩
      rcases ih vectors.2 with ⟨rows, rfl, rowsHave⟩
      exact ⟨cells :: rows, rfl, List.forall_mem_cons.mpr ⟨⟨numbers, widthHas⟩, rowsHave⟩⟩

theorem mapM_rowCells (rows : List (List Value)) :
    (rows.map Value.array).mapM rowCells = .ok rows := by
  induction rows with
  | nil => rfl
  | cons row rows ih =>
      rw [List.map_cons, List.mapM_cons, ih]
      rfl

theorem length_columns (width : Nat) (rows : List (List Value)) :
    (columns width rows).length = width := by
  simp [columns]

/-- A column of a rectangle has as many numbers as there are rows. -/
theorem column_vector {rows : List (List Value)} {width place : Nat} (inside : place < width)
    (rectangle : ∀ row ∈ rows, row.length = width)
    (numbers : ∀ row ∈ rows, ∀ cell ∈ row, Value.IsNumber cell) :
    (∀ cell ∈ rows.filterMap fun row => row[place]?, cell.IsNumber) ∧
      (rows.filterMap fun row => row[place]?).length = rows.length := by
  induction rows with
  | nil => simp
  | cons row rows ih =>
      simp only [List.forall_mem_cons] at rectangle numbers
      rcases ih rectangle.2 numbers.2 with ⟨restNumbers, restLength⟩
      have inRow : place < row.length := rectangle.1 ▸ inside
      have found : row[place]? = some row[place] := List.getElem?_eq_getElem inRow
      simp only [List.filterMap_cons, found]
      refine ⟨List.forall_mem_cons.mpr ⟨?_, restNumbers⟩, by simp [restLength]⟩
      exact numbers.1 _ (List.getElem_mem inRow)

/-- The transpose of the matrix with these rows. -/
theorem transpose_rows (rows : List (List Value)) :
    transpose (.array (rows.map .array)) =
      if rows.all fun row => row.length == (rows.head?.map List.length).getD 0 then
        .ok (.array ((columns ((rows.head?.map List.length).getD 0) rows).map .array))
      else
        .error (.shapeMismatch (Value.array (rows.map .array)).shape
          [rows.length, (rows.head?.map List.length).getD 0]) := by
  simp only [transpose, rowCells, ok_bind, mapM_rowCells]

/-- The transpose has the heights and widths exchanged. -/
theorem transpose_yields
    (regular : (∀ first second, widths first → widths second → first = second) ∨
      allowed .shapeMismatch)
    (noRows : heights 0 → widths 0) {value : Value}
    (matrix : value.MatrixOf heights widths) :
    Yields allowed (MatrixOf widths heights) (transpose value) := by
  rcases matrix.exists_items with ⟨items, rfl, vectors, heightHas⟩
  rcases exists_rows vectors with ⟨rows, rfl, rowsHave⟩
  rw [List.length_map] at heightHas
  have widthHas : widths ((rows.head?.map List.length).getD 0) := by
    cases rows with
    | nil => exact noRows heightHas
    | cons first rest => exact (rowsHave first List.mem_cons_self).2
  rw [transpose_rows]
  split
  · rename_i rectangle
    simp only [List.all_eq_true, beq_iff_eq] at rectangle
    refine ⟨?_, by rw [List.length_map, length_columns]; exact widthHas⟩
    intro column member
    rcases List.mem_map.mp member with ⟨cells, cellsMember, rfl⟩
    rcases List.mem_map.mp cellsMember with ⟨place, placeMember, rfl⟩
    have column := column_vector (List.mem_range.mp placeMember) rectangle
      fun row found => (rowsHave row found).1
    exact ⟨column.1, column.2 ▸ heightHas⟩
  · rename_i ragged
    rcases regular with regular | mismatchAllowed
    · refine absurd ?_ ragged
      simp only [List.all_eq_true, beq_iff_eq]
      intro row member
      exact regular _ _ (rowsHave row member).2 widthHas
    · exact mismatchAllowed

/-! ## Matrix products -/

/-- Matrices whose inner sizes agree have a product, unless the left one has no rows. -/
theorem conformable_matrices {leftWidths rightHeights rightWidths : Nat → Prop}
    (agree : ∀ first second, leftWidths first → rightHeights second → first = second)
    {first : Value} {rest : List Value} (firstVector : first.VectorOf leftWidths)
    {right : Value} (rightMatrix : right.MatrixOf rightHeights rightWidths) :
    conformable (Value.array (first :: rest)).shape right.shape = true := by
  rcases shape_matrix rest firstVector with ⟨inner, leftShape, innerHas⟩
  rcases rightMatrix.exists_items with ⟨items, rfl, vectors, heightHas⟩
  rw [leftShape]
  cases items with
  | nil =>
      have none : inner = 0 := agree inner 0 innerHas heightHas
      simp [shape, conformable, none]
  | cons head tail =>
      rcases shape_matrix tail (vectors head List.mem_cons_self) with ⟨width, rightShape, _⟩
      have same : inner = tail.length + 1 := agree _ _ innerHas heightHas
      simp [rightShape, conformable, same]

/-- The matrix product has the height of its left and the width of its right factor. -/
theorem matrixProduct_yields
    {leftHeights leftWidths rightHeights rightWidths : Nat → Prop}
    (agree : (∀ first second, leftWidths first → rightHeights second → first = second) ∨
      allowed .shapeMismatch)
    (regular : (∀ first second, rightWidths first → rightWidths second → first = second) ∨
      allowed .shapeMismatch)
    (noRows : rightHeights 0 → rightWidths 0)
    {left right : Value} (leftMatrix : left.MatrixOf leftHeights leftWidths)
    (rightMatrix : right.MatrixOf rightHeights rightWidths) :
    Yields allowed (MatrixOf leftHeights rightWidths) (matrixProduct left right) := by
  rcases leftMatrix.exists_items with ⟨rows, rfl, vectors, heightHas⟩
  cases rows with
  | nil => simpa [matrixProduct, shape] using heightHas
  | cons first rest =>
      have firstVector := vectors first List.mem_cons_self
      rcases shape_matrix rest firstVector with ⟨inner, leftShape, _⟩
      unfold matrixProduct
      rw [if_neg (by simp [leftShape])]
      split
      · refine Yields.bind (transpose_yields regular noRows rightMatrix) ?_
        intro transposed transposedMatrix
        rcases transposedMatrix.exists_items with ⟨factors, rfl, factorVectors, widthHas⟩
        simp only [rowCells, ok_bind]
        -- Every row meets every column of the right factor, which is a row of its transpose.
        have rowYields : ∀ row ∈ first :: rest, Yields allowed (VectorOf rightWidths)
            (do
              let cells ← factors.mapM (innerProduct row)
              .ok (.array cells)) := by
          intro row member
          have cellsYield := Yields.mapM fun factor found =>
            innerProduct_yields agree (vectors row member)
              (factorVectors factor found)
          refine Yields.bind cellsYield ?_
          rintro cells ⟨numbers, sameLength⟩
          exact ⟨numbers, sameLength ▸ widthHas⟩
        refine Yields.bind (Yields.mapM rowYields) ?_
        rintro products ⟨productVectors, sameLength⟩
        exact ⟨productVectors, sameLength ▸ heightHas⟩
      · rename_i unfit
        rcases agree with agree | mismatchAllowed
        · exact absurd (conformable_matrices agree firstVector rightMatrix) unfit
        · exact mismatchAllowed

theorem arrayProduct_matrices {leftHeights leftWidths rightHeights rightWidths : Nat → Prop}
    {left right : Value} (leftMatrix : left.MatrixOf leftHeights leftWidths)
    (rightMatrix : right.MatrixOf rightHeights rightWidths) :
    arrayProduct left right = matrixProduct left right := by
  simp [arrayProduct, isMatrixLike_matrix leftMatrix, isMatrixLike_matrix rightMatrix]

/-! ## Which operation an operator stands for -/

theorem binary_numbers {arith : Arith} {left right : Value} (leftNumber : left.IsNumber)
    (rightNumber : right.IsNumber) :
    binary (.plain arith) left right = scalar arith left right := by
  cases left with
  | string content => exact leftNumber.elim
  | array items => exact leftNumber.elim
  | int first =>
      cases right with
      | string content => exact rightNumber.elim
      | array items => exact rightNumber.elim
      | int second => cases arith <;> rfl
      | float second => cases arith <;> rfl
  | float first =>
      cases right with
      | string content => exact rightNumber.elim
      | array items => exact rightNumber.elim
      | int second => cases arith <;> rfl
      | float second => cases arith <;> rfl

theorem binary_places {op : BinaryOp} {lefts rights : List Value}
    (byPlace : op.dotted = true ∨ op.arith = .add ∨ op.arith = .sub) :
    binary op (.array lefts) (.array rights) =
      elementwise op.arith (.array lefts) (.array rights) := by
  rcases op with ⟨dotted, arith⟩
  cases dotted with
  | true => rfl
  | false =>
      rcases byPlace with impossible | rfl | rfl
      · simp at impossible
      · rfl
      · rfl

theorem binary_array_number {arith : Arith} (scales : arith = .mul ∨ arith = .div)
    {items : List Value} {right : Value} (number : right.IsNumber) :
    binary (.plain arith) (.array items) right =
      mapLeaves (fun leaf => scalar arith leaf right) (.array items) := by
  cases right with
  | int value => rcases scales with rfl | rfl <;> rfl
  | float value => rcases scales with rfl | rfl <;> rfl
  | string content => exact number.elim
  | array others => exact number.elim

theorem binary_number_array {left : Value} {items : List Value} (number : left.IsNumber) :
    binary (.plain .mul) left (.array items) =
      mapLeaves (fun leaf => scalar .mul left leaf) (.array items) := by
  cases left with
  | int value => rfl
  | float value => rfl
  | string content => exact number.elim
  | array others => exact number.elim

end MatrixScript.Value
