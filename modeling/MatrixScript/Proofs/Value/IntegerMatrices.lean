import Mathlib.Algebra.BigOperators.Fin
import Mathlib.Algebra.Ring.Int.Defs
import Mathlib.Data.Matrix.Mul
import MatrixScript.Builtin
import MatrixScript.Proofs.Value.DotProducts
import MatrixScript.Proofs.Value.Tables

/-!
# Matrices of integers

A matrix of integers is stored in words that wrap around.  `wrapped` takes a matrix of unbounded
integers to the value that holds its numbers, each wrapped around to a word.  Every
operation on such values is the operation on the matrices, wrapped around once at the end,
so what holds of matrices over the integers holds of the values, exactly.
-/

namespace MatrixScript.Value

/-- The value is an integer. -/
def IsInt : Value → Prop
  | .int _ => True
  | _ => False

/-- The value is a matrix of integers with these numbers of rows and columns. -/
abbrev IntMatrix (height width : Nat) : Value → Prop :=
  ArrayOf (ArrayOf IsInt (· = width)) (· = height)

/-- The integer in a row and a column of a matrix, zero where there is none. -/
def entry (value : Value) (row column : Nat) : Int :=
  ((value.part? [row, column]).bind toInt?).elim 0 Int64.toInt

/-- The vector with these numbers, wrapped around to words. -/
def wrappedRow {length : Nat} (numbers : Fin length → Int) : Value :=
  .array (List.ofFn fun place => .int (Int64.ofInt (numbers place)))

/-- The matrix with these numbers, wrapped around to words. -/
def wrapped {height width : Nat} (numbers : Matrix (Fin height) (Fin width) Int) : Value :=
  .array (List.ofFn fun row => wrappedRow fun column => numbers row column)

variable {height inner width : Nat} {value : Value}

/-! ## Numbers -/

theorem IsInt.isNumber (isInt : value.IsInt) : value.IsNumber := by
  cases value with
  | int number => trivial
  | _ => exact isInt.elim

theorem IsInt.exists_number (isInt : value.IsInt) : ∃ number, value = .int number := by
  cases value with
  | int number => exact ⟨number, rfl⟩
  | _ => exact isInt.elim

theorem wrapped_eq_table (numbers : Matrix (Fin height) (Fin width) Int) :
    wrapped numbers = table fun row column => .int (Int64.ofInt (numbers row column)) :=
  rfl

theorem wrapped_intMatrix (numbers : Matrix (Fin height) (Fin width) Int) :
    (wrapped numbers).IntMatrix height width :=
  arrayOf_ofFn fun _ => arrayOf_ofFn fun _ => trivial

theorem entry_wrapped (numbers : Matrix (Fin height) (Fin width) Int) (row : Fin height)
    (column : Fin width) :
    (wrapped numbers).entry row column = (numbers row column).bmod Int64.size := by
  rw [entry, wrapped_eq_table, part?_table]
  exact Int64.toInt_ofInt

namespace IntMatrix

theorem exists_wrapped (matrix : value.IntMatrix height width) :
    ∃ numbers : Matrix (Fin height) (Fin width) Int, value = wrapped numbers ∧
      ∀ (row : Fin height) (column : Fin width),
        value.entry row column = numbers row column := by
  rcases matrix.exists_ofFn with ⟨rows, rfl, arrays⟩
  choose cells rowIs ints using fun row => (arrays row).exists_ofFn
  choose words wordIs using fun row column => (ints row column).exists_number
  have same : Value.array (List.ofFn rows) =
      wrapped (Matrix.of fun row column => (words row column).toInt) := by
    simp only [wrapped, wrappedRow, Matrix.of_apply, Int64.ofInt_toInt, ← wordIs, ← rowIs]
  refine ⟨_, same, ?_⟩
  intro row column
  rw [same, entry_wrapped]
  exact Int64.toInt_bmod _

theorem matrixOf (matrix : value.IntMatrix height width) :
    value.MatrixOf (· = height) (· = width) := by
  refine matrix.weaken ?_ fun _ is => is
  intro row vector
  exact vector.weaken (fun _ => IsInt.isNumber) fun _ is => is

end IntMatrix

theorem shape_wrapped (numbers : Matrix (Fin height) (Fin width) Int) (positive : 0 < height) :
    (wrapped numbers).shape = [height, width] := by
  rcases (wrapped_intMatrix numbers).matrixOf.exists_items with ⟨items, is, rows, rfl⟩
  rw [is]
  cases items with
  | nil => cases positive
  | cons first rest =>
      rcases shape_matrix rest (rows first List.mem_cons_self) with ⟨_, shape, rfl⟩
      exact shape

/-! ## Sums and transposes -/

theorem elementwise_ofFn {op : Arith} {length : Nat} {lefts rights results : Fin length → Value}
    (each : ∀ place, elementwise op (lefts place) (rights place) = .ok (results place)) :
    elementwise op (.array (List.ofFn lefts)) (.array (List.ofFn rights)) =
      .ok (.array (List.ofFn results)) := by
  have all : elementwiseAll op (List.ofFn lefts) (List.ofFn rights) = .ok (List.ofFn results) := by
    induction length with
    | zero => rfl
    | succ length ih =>
        rw [List.ofFn_succ, List.ofFn_succ, elementwiseAll, each, ok_bind,
          ih fun place => each place.succ, ok_bind, ← List.ofFn_succ]
  rw [elementwise, if_pos (by simp), all, ok_bind]

theorem add_wrapped (left right : Matrix (Fin height) (Fin width) Int) :
    binary (.plain .add) (wrapped left) (wrapped right) = .ok (wrapped (left + right)) := by
  refine elementwise_ofFn fun row => elementwise_ofFn fun column => ?_
  change elementwise .add (.int (Int64.ofInt (left row column)))
    (.int (Int64.ofInt (right row column))) =
      .ok (.int (Int64.ofInt (left row column + right row column)))
  rw [elementwise_leaf rfl, Int64.ofInt_add]
  rfl

theorem transpose_wrapped (numbers : Matrix (Fin height) (Fin width) Int)
    (positive : 0 < height) :
    transpose (wrapped numbers) = .ok (wrapped numbers.transpose) :=
  transpose_table _ fun none => absurd none (Nat.ne_of_gt positive)

/-! ## Products -/

theorem mapM_ofFn {α β : Type} {change : α → Except Fault β} {length : Nat}
    {members : Fin length → α} {results : Fin length → β}
    (each : ∀ place, change (members place) = .ok (results place)) :
    (List.ofFn members).mapM change = .ok (List.ofFn results) := by
  induction length with
  | zero => rfl
  | succ length ih =>
      rw [List.ofFn_succ, List.mapM_cons, each, ok_bind, ih fun place => each place.succ,
        List.ofFn_succ]
      rfl

/-- The numbers may be taken for exact ones until the products are added up. -/
theorem ofInt_exactProduct {length : Nat} (lefts rights : Fin length → Int) :
    Int64.ofInt (exactProduct (List.ofFn fun place => Int64.ofInt (lefts place))
      (List.ofFn fun place => Int64.ofInt (rights place))) =
        Int64.ofInt (∑ place, lefts place * rights place) := by
  induction length with
  | zero => rfl
  | succ length ih =>
      rw [List.ofFn_succ, List.ofFn_succ, exactProduct, Int64.ofInt_add, Int64.ofInt_mul,
        Int64.ofInt_toInt, Int64.ofInt_toInt, ih, Fin.sum_univ_succ, Int64.ofInt_add,
        Int64.ofInt_mul]

theorem innerProduct_wrappedRow {length : Nat} (lefts rights : Fin length → Int) :
    innerProduct (wrappedRow lefts) (wrappedRow rights) =
      .ok (.int (Int64.ofInt (∑ place, lefts place * rights place))) := by
  have ints (numbers : Fin length → Int) : wrappedRow numbers =
      .array ((List.ofFn fun place => Int64.ofInt (numbers place)).map .int) := by
    rw [List.map_ofFn]
    rfl
  rw [ints, ints, innerProduct_ints (by simp), ofInt_exactProduct]

theorem rowCells_wrapped (numbers : Matrix (Fin height) (Fin width) Int) :
    rowCells (wrapped numbers) =
      .ok (List.ofFn fun row => wrappedRow fun column => numbers row column) :=
  rfl

/-- Matrices are multiplied as matrices, and not as vectors. -/
theorem binary_wrapped {rows : Nat} (left : Matrix (Fin height) (Fin inner) Int)
    (right : Matrix (Fin rows) (Fin width) Int) :
    binary (.plain .mul) (wrapped left) (wrapped right) =
      matrixProduct (wrapped left) (wrapped right) :=
  arrayProduct_matrices (wrapped_intMatrix left).matrixOf (wrapped_intMatrix right).matrixOf

/-- A row meets every column of the right factor, which is a row of its transpose. -/
theorem mapM_innerProduct_wrapped (numbers : Fin inner → Int)
    (right : Matrix (Fin inner) (Fin width) Int) :
    (List.ofFn fun column => wrappedRow fun place => right.transpose column place).mapM
        (innerProduct (wrappedRow numbers)) =
      .ok (List.ofFn fun column =>
        .int (Int64.ofInt (∑ place, numbers place * right place column))) :=
  mapM_ofFn fun column => innerProduct_wrappedRow numbers fun place => right place column

theorem mul_wrapped (left : Matrix (Fin height) (Fin inner) Int)
    (right : Matrix (Fin inner) (Fin width) Int) (heightPositive : 0 < height)
    (innerPositive : 0 < inner) :
    binary (.plain .mul) (wrapped left) (wrapped right) = .ok (wrapped (left * right)) := by
  have nonempty : (wrapped left).shape ≠ [0] := by
    rw [shape_wrapped left heightPositive]
    simp
  have fit : conformable (wrapped left).shape (wrapped right).shape = true := by
    rw [shape_wrapped left heightPositive, shape_wrapped right innerPositive]
    simp [conformable]
  rw [binary_wrapped, matrixProduct, if_neg nonempty, if_pos fit,
    transpose_wrapped right innerPositive, ok_bind, rowCells_wrapped, ok_bind, rowCells_wrapped,
    ok_bind, mapM_ofFn, ok_bind]
  · rfl
  · intro row
    rw [mapM_innerProduct_wrapped, ok_bind]
    rfl

theorem mul_wrapped_mismatch {rows : Nat} (left : Matrix (Fin height) (Fin inner) Int)
    (right : Matrix (Fin rows) (Fin width) Int) (heightPositive : 0 < height)
    (rowsPositive : 0 < rows) (different : inner ≠ rows) :
    binary (.plain .mul) (wrapped left) (wrapped right) =
      .error (.shapeMismatch [height, inner] [rows, width]) := by
  have unfit : conformable [height, inner] [rows, width] = false := by
    simp [conformable, different]
  rw [binary_wrapped, matrixProduct, mismatch, shape_wrapped left heightPositive,
    shape_wrapped right rowsPositive, if_neg (by simp), unfit]
  rfl

/-! ## The unit matrix -/

theorem grid_eq_table (builtin : Builtin) (rows columns : Nat) :
    builtin.grid rows columns =
      table fun (row : Fin rows) (column : Fin columns) => .int (builtin.cell row column) := by
  rw [Builtin.grid, map_range_eq_ofFn, table]
  simp only [map_range_eq_ofFn]

theorem build_eye {size : Int64} (is : size.toInt = height) :
    Builtin.eye.build [size] = .ok (wrapped (1 : Matrix (Fin height) (Fin height) Int)) := by
  have notNegative : ¬ size < 0 := by
    rw [Int64.lt_iff_toInt_lt, Int64.toInt_zero, is]
    omega
  have cells (row column : Fin height) : Builtin.eye.cell row column =
      Int64.ofInt ((1 : Matrix (Fin height) (Fin height) Int) row column) := by
    rw [Builtin.cell, Matrix.one_apply]
    by_cases diagonal : row = column
    · rw [if_pos (congrArg Fin.val diagonal), if_pos diagonal]
      rfl
    · rw [if_neg fun same => diagonal (Fin.ext same), if_neg diagonal]
      rfl
  rw [Builtin.build, Builtin.dimension, if_neg notNegative, ok_bind, is, Int.toNat_natCast,
    grid_eq_table, wrapped_eq_table]
  simp only [cells]

/-! ## Laws -/

/--
The product of two matrices of integers.  There is one just if the left matrix has as many columns
as the right one has rows, and else the shapes do not match.  The number in a row and a column is
the sum of the products along them, wrapped around to a word.
-/
theorem product_of_matrices {height inner rows width : Nat} {left right : Value}
    (heightPositive : 0 < height) (innerPositive : 0 < inner) (rowsPositive : 0 < rows)
    (leftInts : left.IntMatrix height inner) (rightInts : right.IntMatrix rows width) :
    ((∃ product, binary (.plain .mul) left right = .ok product) ↔ inner = rows) ∧
    (inner ≠ rows →
      binary (.plain .mul) left right = .error (.shapeMismatch [height, inner] [rows, width])) ∧
    ∀ product, binary (.plain .mul) left right = .ok product →
      product.IntMatrix height width ∧
        ∀ row < height, ∀ column < width, product.entry row column =
          (∑ place ∈ Finset.range inner, left.entry row place * right.entry place column).bmod
            Int64.size := by
  rcases leftInts.exists_wrapped with ⟨lefts, rfl, leftEntry⟩
  rcases rightInts.exists_wrapped with ⟨rights, rfl, rightEntry⟩
  by_cases same : inner = rows
  · subst same
    have multiplied := mul_wrapped lefts rights heightPositive innerPositive
    refine ⟨⟨fun _ => rfl, fun _ => ⟨_, multiplied⟩⟩, fun different => absurd rfl different, ?_⟩
    intro product computed
    rw [multiplied] at computed
    cases computed
    refine ⟨wrapped_intMatrix _, ?_⟩
    intro row rowInside column columnInside
    -- Inside the factors an entry is the number itself, for it was read off a word.
    have factors (place : Fin inner) :
        (wrapped lefts).entry row place * (wrapped rights).entry place column =
          lefts ⟨row, rowInside⟩ place * rights place ⟨column, columnInside⟩ :=
      congrArg₂ (· * ·) (leftEntry ⟨row, rowInside⟩ place) (rightEntry place ⟨column, columnInside⟩)
    calc
      (wrapped (lefts * rights)).entry row column =
          ((lefts * rights) ⟨row, rowInside⟩ ⟨column, columnInside⟩).bmod Int64.size :=
        entry_wrapped (lefts * rights) ⟨row, rowInside⟩ ⟨column, columnInside⟩
      _ = _ := by simp only [Matrix.mul_apply, Finset.sum_range, factors]
  · have failed := mul_wrapped_mismatch lefts rights heightPositive rowsPositive same
    refine ⟨⟨?_, fun equal => absurd equal same⟩, fun _ => failed, ?_⟩
    · rintro ⟨product, computed⟩
      rw [failed] at computed
      cases computed
    · intro product computed
      rw [failed] at computed
      cases computed

/-- The number in the first row is 2⁶⁴ + 8; a column of three does not fit. -/
theorem product_of_matrices_wrapping :
    (IntMatrix 2 2 (.array [.array [.int 9223372036854775807, .int 2],
        .array [.int 0, .int 1]]) ∧
      IntMatrix 2 1 (.array [.array [.int 2], .array [.int 5]]) ∧
      ∃ product, binary (.plain .mul)
          (.array [.array [.int 9223372036854775807, .int 2], .array [.int 0, .int 1]])
          (.array [.array [.int 2], .array [.int 5]]) = .ok product ∧
        product.IntMatrix 2 1 ∧ product.entry 0 0 = 8 ∧ product.entry 1 0 = 5) ∧
    (IntMatrix 3 1 (.array [.array [.int 2], .array [.int 5], .array [.int 7]]) ∧
      binary (.plain .mul)
          (.array [.array [.int 9223372036854775807, .int 2], .array [.int 0, .int 1]])
          (.array [.array [.int 2], .array [.int 5], .array [.int 7]]) =
        .error (.shapeMismatch [2, 2] [3, 1])) := by
  have square : IntMatrix 2 2 (.array [.array [.int 9223372036854775807, .int 2],
      .array [.int 0, .int 1]]) := by
    simp [IsInt]
  have column : IntMatrix 2 1 (.array [.array [.int 2], .array [.int 5]]) := by
    simp [IsInt]
  have long : IntMatrix 3 1 (.array [.array [.int 2], .array [.int 5], .array [.int 7]]) := by
    simp [IsInt]
  have fits := product_of_matrices (by decide) (by decide) (by decide) square column
  rcases fits.1.mpr rfl with ⟨product, computed⟩
  rcases fits.2.2 product computed with ⟨ints, entries⟩
  refine ⟨⟨square, column, product, computed, ints, ?_, ?_⟩, long, ?_⟩
  · rw [entries 0 (by decide) 0 (by decide)]
    decide
  · rw [entries 1 (by decide) 0 (by decide)]
    decide
  · have unfit := product_of_matrices (by decide) (by decide) (by decide) square long
    exact unfit.2.1 (by decide)

/--
The laws of matrices.  Products are associative and distribute over sums, the transpose of
a product is the product of the transposes in the other order, and the unit matrices change
nothing.  The numbers wrap around, and the two sides are the same value all the same.
-/
theorem laws_of_matrices {height inner middle width : Nat} {first second other third : Value}
    (heightPositive : 0 < height) (innerPositive : 0 < inner) (middlePositive : 0 < middle)
    (firstInts : first.IntMatrix height inner) (secondInts : second.IntMatrix inner middle)
    (otherInts : other.IntMatrix inner middle) (thirdInts : third.IntMatrix middle width) :
    (∃ product,
      (binary (.plain .mul) first second >>= fun left => binary (.plain .mul) left third) =
        .ok product ∧
      (binary (.plain .mul) second third >>= fun right => binary (.plain .mul) first right) =
        .ok product) ∧
    (∃ product,
      (binary (.plain .add) second other >>= fun sum => binary (.plain .mul) first sum) =
        .ok product ∧
      (binary (.plain .mul) first second >>= fun left =>
        binary (.plain .mul) first other >>= fun right => binary (.plain .add) left right) =
          .ok product) ∧
    (∃ product,
      (binary (.plain .mul) first second >>= transpose) = .ok product ∧
      (transpose second >>= fun left =>
        transpose first >>= fun right => binary (.plain .mul) left right) = .ok product) ∧
    (∀ size : Int64, size.toInt = height →
      (Builtin.eye.build [size] >>= fun unit => binary (.plain .mul) unit first) = .ok first) ∧
    (∀ size : Int64, size.toInt = inner →
      (Builtin.eye.build [size] >>= fun unit => binary (.plain .mul) first unit) = .ok first) := by
  rcases firstInts.exists_wrapped with ⟨firsts, rfl, _⟩
  rcases secondInts.exists_wrapped with ⟨seconds, rfl, _⟩
  rcases otherInts.exists_wrapped with ⟨others, rfl, _⟩
  rcases thirdInts.exists_wrapped with ⟨thirds, rfl, _⟩
  refine ⟨⟨wrapped (firsts * seconds * thirds), ?_, ?_⟩,
    ⟨wrapped (firsts * (seconds + others)), ?_, ?_⟩,
    ⟨wrapped (firsts * seconds).transpose, ?_, ?_⟩, ?_, ?_⟩
  · rw [mul_wrapped _ _ heightPositive innerPositive, ok_bind,
      mul_wrapped _ _ heightPositive middlePositive]
  · rw [mul_wrapped _ _ innerPositive middlePositive, ok_bind,
      mul_wrapped _ _ heightPositive innerPositive, Matrix.mul_assoc]
  · rw [add_wrapped, ok_bind, mul_wrapped _ _ heightPositive innerPositive]
  · rw [mul_wrapped _ _ heightPositive innerPositive, ok_bind,
      mul_wrapped _ _ heightPositive innerPositive, ok_bind, add_wrapped, Matrix.mul_add]
  · rw [mul_wrapped _ _ heightPositive innerPositive, ok_bind, transpose_wrapped _ heightPositive]
  · rw [transpose_wrapped _ innerPositive, ok_bind, transpose_wrapped _ heightPositive, ok_bind,
      mul_wrapped _ _ middlePositive innerPositive, Matrix.transpose_mul]
  · intro size is
    rw [build_eye is, ok_bind, mul_wrapped _ _ heightPositive heightPositive, Matrix.one_mul]
  · intro size is
    rw [build_eye is, ok_bind, mul_wrapped _ _ heightPositive innerPositive, Matrix.mul_one]

/-- A row, two columns and a single number; the product of all three is 20, wrapped around. -/
theorem laws_of_matrices_wrapping :
    IntMatrix 1 2 (.array [.array [.int 9223372036854775807, .int 2]]) ∧
    IntMatrix 2 1 (.array [.array [.int 2], .array [.int 3]]) ∧
    IntMatrix 2 1 (.array [.array [.int (-1)], .array [.int 4]]) ∧
    IntMatrix 1 1 (.array [.array [.int 5]]) ∧
    (binary (.plain .mul) (.array [.array [.int 2], .array [.int 3]])
        (.array [.array [.int 5]]) >>= fun right =>
      binary (.plain .mul) (.array [.array [.int 9223372036854775807, .int 2]]) right) =
        .ok (.array [.array [.int 20]]) ∧
    (Builtin.eye.build [2] >>= fun unit =>
      binary (.plain .mul) (.array [.array [.int 9223372036854775807, .int 2]]) unit) =
        .ok (.array [.array [.int 9223372036854775807, .int 2]]) := by
  have row : IntMatrix 1 2 (.array [.array [.int 9223372036854775807, .int 2]]) := by
    simp [IsInt]
  have column : IntMatrix 2 1 (.array [.array [.int 2], .array [.int 3]]) := by
    simp [IsInt]
  have other : IntMatrix 2 1 (.array [.array [.int (-1)], .array [.int 4]]) := by
    simp [IsInt]
  have single : IntMatrix 1 1 (.array [.array [.int 5]]) := by
    simp [IsInt]
  rcases laws_of_matrices (by decide) (by decide) (by decide) row column other single with
    ⟨⟨product, first, last⟩, _, _, _, unit⟩
  have twenty : Except.ok product = .ok (.array [.array [.int 20]]) := first.symm.trans rfl
  exact ⟨row, column, other, single, last.trans twenty, unit 2 rfl⟩

end MatrixScript.Value
