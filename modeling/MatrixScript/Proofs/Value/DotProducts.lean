import MatrixScript.Proofs.Value.Products

/-!
# Sums of products

The products of integers are added up in words that wrap around, one product after the
other.  Nothing is lost by that: the word at the end is the exact sum, wrapped around
once.  A dot product is the float next to that word.

Two vectors without members are taken for matrices without rows, so that they have an
empty matrix product and no dot product.
-/

namespace MatrixScript.Value

/-- The sum of the products of the integers at the same places, without bounds. -/
def exactProduct : List Int64 → List Int64 → Int
  | left :: lefts, right :: rights => left.toInt * right.toInt + exactProduct lefts rights
  | _, _ => 0

/-- Products are added to a word as if the sum were exact until the end. -/
theorem addProducts_ints (sum : Int64) (lefts rights : List Int64) :
    addProducts (.int sum) (lefts.map .int) (rights.map .int) =
      .ok (.int (Int64.ofInt (sum.toInt + exactProduct lefts rights))) := by
  induction lefts generalizing sum rights with
  | nil => simp [addProducts, exactProduct]
  | cons left lefts ih =>
      cases rights with
      | nil => simp [addProducts, exactProduct]
      | cons right rights =>
          have step : addProducts (.int sum) ((left :: lefts).map .int)
              ((right :: rights).map .int) =
                addProducts (.int (sum + left * right)) (lefts.map .int) (rights.map .int) := rfl
          rw [step, ih, exactProduct]
          simp only [Int64.ofInt_add, Int64.ofInt_mul, Int64.ofInt_toInt, Int64.add_assoc]

theorem innerProduct_ints {lefts rights : List Int64} (same : lefts.length = rights.length) :
    innerProduct (.array (lefts.map .int)) (.array (rights.map .int)) =
      .ok (.int (Int64.ofInt (exactProduct lefts rights))) := by
  rw [innerProduct, if_pos (by rw [List.length_map, List.length_map, same]), addProducts_ints,
    Int64.toInt_zero, Int.zero_add]

section Vectors

variable {lefts rights : List Value}

/-- The plain product of two vectors is their dot product, unless both are empty. -/
theorem binary_vectors (leftNumbers : ∀ item ∈ lefts, item.IsNumber)
    (rightNumbers : ∀ item ∈ rights, item.IsNumber) (nonempty : ¬ (lefts = [] ∧ rights = [])) :
    binary (.plain .mul) (.array lefts) (.array rights) =
      dotProduct (.array lefts) (.array rights) :=
  arrayProduct_vectors leftNumbers rightNumbers nonempty

theorem dotProduct_float (leftNumbers : ∀ item ∈ lefts, item.IsNumber)
    (rightNumbers : ∀ item ∈ rights, item.IsNumber) (same : lefts.length = rights.length) :
    ∃ number, dotProduct (.array lefts) (.array rights) = .ok (.float number) := by
  have sums : Yields (fun _ => False) IsNumber (addProducts (.int 0) lefts rights) :=
    addProducts_yields trivial leftNumbers rightNumbers
  rcases sums.exists_result with ⟨sum, added, _⟩
  refine ⟨sum.toFloat?.getD 0.0, ?_⟩
  rw [dotProduct, innerProduct, if_pos same, added, ok_bind]

theorem dotProduct_ints {lefts rights : List Int64} (same : lefts.length = rights.length) :
    dotProduct (.array (lefts.map .int)) (.array (rights.map .int)) =
      .ok (.float (Int64.ofInt (exactProduct lefts rights)).toFloat) := by
  rw [dotProduct, innerProduct_ints same, ok_bind]
  rfl

theorem dotProduct_mismatch (leftNumbers : ∀ item ∈ lefts, item.IsNumber)
    (rightNumbers : ∀ item ∈ rights, item.IsNumber) (different : lefts.length ≠ rights.length) :
    dotProduct (.array lefts) (.array rights) =
      .error (.shapeMismatch [lefts.length] [rights.length]) := by
  rw [dotProduct, innerProduct, if_neg different, mismatch, shape_vector leftNumbers,
    shape_vector rightNumbers, error_bind]

/--
The product of two vectors.  Vectors of one length, which is not zero, have a product that is
a float; for integers it is the float next to the sum of the products, wrapped around to a word.
Vectors of different lengths do not fit.  Two empty vectors have an empty product, as
matrices without rows have.
-/
theorem product_of_vectors (leftNumbers : ∀ item ∈ lefts, item.IsNumber)
    (rightNumbers : ∀ item ∈ rights, item.IsNumber) :
    (lefts.length = rights.length → lefts ≠ [] →
      (∃ number, binary (.plain .mul) (.array lefts) (.array rights) = .ok (.float number)) ∧
      ∀ leftInts rightInts : List Int64, lefts = leftInts.map .int → rights = rightInts.map .int →
        ∃ word : Int64, word.toInt = (exactProduct leftInts rightInts).bmod Int64.size ∧
          binary (.plain .mul) (.array lefts) (.array rights) = .ok (.float word.toFloat)) ∧
    (lefts.length ≠ rights.length →
      binary (.plain .mul) (.array lefts) (.array rights) =
        .error (.shapeMismatch [lefts.length] [rights.length])) ∧
    (lefts = [] → rights = [] →
      binary (.plain .mul) (.array lefts) (.array rights) = .ok (.array [])) := by
  refine ⟨?_, ?_, ?_⟩
  · intro same nonempty
    have dot := binary_vectors leftNumbers rightNumbers fun empty => nonempty empty.1
    rw [dot]
    refine ⟨dotProduct_float leftNumbers rightNumbers same, ?_⟩
    rintro leftInts rightInts rfl rfl
    rw [List.length_map, List.length_map] at same
    exact ⟨_, Int64.toInt_ofInt, dotProduct_ints same⟩
  · intro different
    rw [binary_vectors leftNumbers rightNumbers]
    · exact dotProduct_mismatch leftNumbers rightNumbers different
    · rintro ⟨rfl, rfl⟩
      exact different rfl
  · rintro rfl rfl
    rfl

/-- The sum is 2⁶⁴ + 10, and it exceeds a word after the first product. -/
theorem product_of_vectors_wrapping :
    (∀ item ∈ [Value.int 9223372036854775807, .int 3], item.IsNumber) ∧
      (∀ item ∈ [Value.int 2, .int 4], item.IsNumber) ∧
      ∃ word : Int64, word.toInt = 10 ∧
        binary (.plain .mul) (.array [.int 9223372036854775807, .int 3])
          (.array [.int 2, .int 4]) = .ok (.float word.toFloat) := by
  have leftNumbers : ∀ item ∈ [Value.int 9223372036854775807, .int 3], item.IsNumber := by
    simp [IsNumber]
  have rightNumbers : ∀ item ∈ [Value.int 2, .int 4], item.IsNumber := by
    simp [IsNumber]
  have product := (product_of_vectors leftNumbers rightNumbers).1 rfl (by simp)
  rcases product.2 [9223372036854775807, 3] [2, 4] rfl rfl with ⟨word, wraps, multiplied⟩
  have exact_sum : (exactProduct [9223372036854775807, 3] [2, 4]).bmod Int64.size = 10 := by
    decide
  exact ⟨leftNumbers, rightNumbers, word, wraps.trans exact_sum, multiplied⟩

/-- Empty vectors have one length and no product that is a float. -/
theorem empty_product_not_float :
    ¬ ∀ lefts rights : List Value, (∀ item ∈ lefts, item.IsNumber) →
      (∀ item ∈ rights, item.IsNumber) → lefts.length = rights.length →
        ∃ number, binary (.plain .mul) (.array lefts) (.array rights) = .ok (.float number) := by
  intro always
  rcases always [] [] (by simp) (by simp) rfl with ⟨number, impossible⟩
  cases impossible

end Vectors

end MatrixScript.Value
