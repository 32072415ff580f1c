import MatrixScript.Arithmetic
import MatrixScript.Proofs.Outcome

/-!
# Arithmetic on arrays of numbers

A value does not carry its sizes, so they are recovered from its nesting:
`Value.ArrayOf` describes an array by its members and by the lengths it may have.
A vector is an array of numbers and a matrix is an array of vectors.

Every operation on vectors and matrices has one statement about what it yields.  Each
is about an arbitrary choice of lengths, and asks for no more than the operation
needs: that the lengths of two operands agree, or else that a mismatch is allowed.
-/

namespace MatrixScript.Value

variable {allowed : FaultKind → Prop}

/-- The value is an integer or a float. -/
def IsNumber : Value → Prop
  | .int _ | .float _ => True
  | _ => False

/-- The value is an array of such members, and of one of the lengths. -/
def ArrayOf (member : Value → Prop) (lengths : Nat → Prop) : Value → Prop
  | .array items => (∀ item ∈ items, member item) ∧ lengths items.length
  | _ => False

instance : DecidablePred IsNumber
  | .int _ | .float _ => isTrue trivial
  | .string _ | .array _ => isFalse id

instance (member : Value → Prop) (lengths : Nat → Prop) [DecidablePred member]
    [DecidablePred lengths] : DecidablePred (ArrayOf member lengths)
  | .array items => inferInstanceAs (Decidable ((∀ item ∈ items, member item) ∧ _))
  | .int _ | .float _ | .string _ => isFalse id

/-- The value is an array of numbers. -/
abbrev VectorOf (lengths : Nat → Prop) : Value → Prop :=
  ArrayOf IsNumber lengths

/-- The value is an array of arrays of numbers. -/
abbrev MatrixOf (heights widths : Nat → Prop) : Value → Prop :=
  ArrayOf (VectorOf widths) heights

@[simp]
theorem arrayOf_array {member : Value → Prop} {lengths : Nat → Prop} {items : List Value} :
    (Value.array items).ArrayOf member lengths ↔
      (∀ item ∈ items, member item) ∧ lengths items.length :=
  Iff.rfl

theorem ArrayOf.exists_items {member : Value → Prop} {lengths : Nat → Prop} {value : Value}
    (array : value.ArrayOf member lengths) :
    ∃ items, value = .array items ∧ (∀ item ∈ items, member item) ∧
      lengths items.length := by
  cases value with
  | array items => exact ⟨items, rfl, array⟩
  | int number => exact array.elim
  | float number => exact array.elim
  | string content => exact array.elim

theorem ArrayOf.weaken {member better : Value → Prop} {lengths more : Nat → Prop}
    {value : Value} (array : value.ArrayOf member lengths)
    (members : ∀ item, member item → better item)
    (lengthsImply : ∀ length, lengths length → more length) :
    value.ArrayOf better more := by
  rcases array.exists_items with ⟨items, rfl, itemsHave, lengthHas⟩
  exact ⟨fun item found => members item (itemsHave item found), lengthsImply _ lengthHas⟩

/-! ## Numbers -/

theorem IsNumber.toFloat? {value : Value} (number : value.IsNumber) :
    ∃ float, value.toFloat? = some float := by
  cases value with
  | int number => exact ⟨_, rfl⟩
  | float number => exact ⟨_, rfl⟩
  | string content => exact number.elim
  | array items => exact number.elim

theorem IsNumber.not_isArray {value : Value} (number : value.IsNumber) :
    value.isArray = false := by
  cases value with
  | int number => rfl
  | float number => rfl
  | string content => exact number.elim
  | array items => exact number.elim

theorem IsNumber.shape_eq {value : Value} (number : value.IsNumber) : value.shape = [] := by
  cases value with
  | int number => simp [shape]
  | float number => simp [shape]
  | string content => exact number.elim
  | array items => exact number.elim

theorem divide_yields (division : allowed .divisionByZero) (dividend divisor : Float) :
    Yields allowed IsNumber (divide dividend divisor) := by
  unfold divide
  split
  · exact division
  · exact trivial

theorem floatArith_yields {op : Arith} (division : op = .div → allowed .divisionByZero)
    (left right : Float) : Yields allowed IsNumber (floatArith op left right) := by
  cases op with
  | add => exact trivial
  | sub => exact trivial
  | mul => exact trivial
  | div => exact divide_yields (division rfl) left right

theorem intArith_yields {op : Arith} (division : op = .div → allowed .divisionByZero)
    (left right : Int64) : Yields allowed IsNumber (intArith op left right) := by
  cases op with
  | add => exact trivial
  | sub => exact trivial
  | mul => exact trivial
  | div => exact divide_yields (division rfl) _ _

/-- An operation on two numbers yields a number, and only a division can fail. -/
theorem scalar_yields {op : Arith} (division : op = .div → allowed .divisionByZero)
    {left right : Value} (leftNumber : left.IsNumber) (rightNumber : right.IsNumber) :
    Yields allowed IsNumber (scalar op left right) := by
  rcases leftNumber.toFloat? with ⟨first, firstFloat⟩
  rcases rightNumber.toFloat? with ⟨second, secondFloat⟩
  unfold scalar
  split
  · exact intArith_yields division _ _
  · rw [firstFloat, secondFloat]
    exact floatArith_yields division first second

/-! ## Place by place -/

theorem elementwise_number_yields (division : allowed .divisionByZero) (op : Arith)
    {left right : Value} (leftNumber : left.IsNumber) (rightNumber : right.IsNumber) :
    Yields allowed IsNumber (elementwise op left right) := by
  have unfolded : elementwise op left right = scalar op left right := by
    cases left with
    | int number => simp [elementwise, rightNumber.not_isArray]
    | float number => simp [elementwise, rightNumber.not_isArray]
    | string content => exact leftNumber.elim
    | array items => exact leftNumber.elim
  rw [unfolded]
  exact scalar_yields (fun _ => division) leftNumber rightNumber

theorem elementwiseAll_yields {op : Arith} {leftMember rightMember member : Value → Prop}
    (members : ∀ left right, leftMember left → rightMember right →
      Yields allowed member (elementwise op left right))
    {lefts rights : List Value} (same : lefts.length = rights.length)
    (leftsHave : ∀ item ∈ lefts, leftMember item)
    (rightsHave : ∀ item ∈ rights, rightMember item) :
    Yields allowed
      (fun items => (∀ item ∈ items, member item) ∧ items.length = lefts.length)
      (elementwiseAll op lefts rights) := by
  induction lefts generalizing rights with
  | nil =>
      rw [elementwiseAll]
      · exact ⟨by simp, rfl⟩
      · simp
  | cons left lefts ih =>
      cases rights with
      | nil => simp at same
      | cons right rights =>
          rw [elementwiseAll]
          simp only [List.forall_mem_cons] at leftsHave rightsHave
          refine Yields.bind (members left right leftsHave.1 rightsHave.1) ?_
          intro head headHas
          refine Yields.bind (ih (by simpa using same) leftsHave.2 rightsHave.2) ?_
          rintro tail ⟨tailHas, tailLength⟩
          exact ⟨List.forall_mem_cons.mpr ⟨headHas, tailHas⟩, by simp [tailLength]⟩

/-- Two arrays are combined place by place if their lengths agree. -/
theorem elementwise_yields {op : Arith} {leftMember rightMember member : Value → Prop}
    {leftLengths rightLengths : Nat → Prop}
    (members : ∀ left right, leftMember left → rightMember right →
      Yields allowed member (elementwise op left right))
    (agree : (∀ first second, leftLengths first → rightLengths second → first = second) ∨
      allowed .shapeMismatch)
    {left right : Value} (leftArray : left.ArrayOf leftMember leftLengths)
    (rightArray : right.ArrayOf rightMember rightLengths) :
    Yields allowed
      (ArrayOf member fun length => leftLengths length ∧ rightLengths length)
      (elementwise op left right) := by
  rcases leftArray.exists_items with ⟨lefts, rfl, leftsHave, leftLength⟩
  rcases rightArray.exists_items with ⟨rights, rfl, rightsHave, rightLength⟩
  rw [elementwise]
  split
  · rename_i same
    refine Yields.bind (elementwiseAll_yields members same leftsHave rightsHave) ?_
    rintro items ⟨itemsHave, length⟩
    refine ⟨itemsHave, ?_, ?_⟩
    · exact length ▸ leftLength
    · rw [length, same]
      exact rightLength
  · rename_i different
    rcases agree with agree | mismatchAllowed
    · exact absurd (agree _ _ leftLength rightLength) different
    · exact mismatchAllowed

/-! ## Every number in an array -/

theorem mapLeaves_number {change : Value → Except Fault Value} {value : Value}
    (number : value.IsNumber) : mapLeaves change value = change value := by
  cases value with
  | int number => simp [mapLeaves]
  | float number => simp [mapLeaves]
  | string content => exact number.elim
  | array items => exact number.elim

theorem mapLeavesAll_yields {change : Value → Except Fault Value}
    {source target : Value → Prop} {items : List Value}
    (members : ∀ item, source item → Yields allowed target (mapLeaves change item))
    (itemsHave : ∀ item ∈ items, source item) :
    Yields allowed
      (fun changed => (∀ item ∈ changed, target item) ∧ changed.length = items.length)
      (mapLeavesAll change items) := by
  induction items with
  | nil =>
      rw [mapLeavesAll]
      exact ⟨by simp, rfl⟩
  | cons head tail ih =>
      rw [mapLeavesAll]
      simp only [List.forall_mem_cons] at itemsHave
      refine Yields.bind (members head itemsHave.1) fun first firstHas => ?_
      refine Yields.bind (ih itemsHave.2) ?_
      rintro rest ⟨restHas, restLength⟩
      exact ⟨List.forall_mem_cons.mpr ⟨firstHas, restHas⟩, by simp [restLength]⟩

/-- Changing the numbers in an array keeps its lengths. -/
theorem mapLeaves_yields {change : Value → Except Fault Value}
    {source target : Value → Prop} {lengths : Nat → Prop}
    (members : ∀ item, source item → Yields allowed target (mapLeaves change item))
    {value : Value} (array : value.ArrayOf source lengths) :
    Yields allowed (ArrayOf target lengths) (mapLeaves change value) := by
  rcases array.exists_items with ⟨items, rfl, itemsHave, length⟩
  rw [mapLeaves]
  refine Yields.bind (mapLeavesAll_yields members itemsHave) ?_
  rintro changed ⟨changedHave, sameLength⟩
  exact ⟨changedHave, sameLength ▸ length⟩

section Leaves

variable {change : Value → Except Fault Value} {value : Value}

theorem mapLeaves_vector_yields {lengths : Nat → Prop}
    (leaves : ∀ leaf, leaf.IsNumber → Yields allowed IsNumber (change leaf))
    (vector : value.VectorOf lengths) :
    Yields allowed (VectorOf lengths) (mapLeaves change value) := by
  apply mapLeaves_yields ?_ vector
  intro leaf number
  rw [mapLeaves_number number]
  exact leaves leaf number

theorem mapLeaves_matrix_yields {heights widths : Nat → Prop}
    (leaves : ∀ leaf, leaf.IsNumber → Yields allowed IsNumber (change leaf))
    (matrix : value.MatrixOf heights widths) :
    Yields allowed (MatrixOf heights widths) (mapLeaves change value) :=
  mapLeaves_yields (fun _ => mapLeaves_vector_yields leaves) matrix

end Leaves

end MatrixScript.Value
