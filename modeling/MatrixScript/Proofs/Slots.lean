import MatrixScript.Expr.Evaluation
import MatrixScript.Proofs.Precision
import MatrixScript.Proofs.Value.Parts

/-!
# Slots of arrays

A coordinate selects a member of an array, and the coordinates behind it go on inside
that member.  What is written keeps the array as it was if the member can be replaced;
so a matrix keeps the lengths of its rows if a whole row is replaced by a row of such a
length, and in any case if a single number is replaced.
-/

namespace MatrixScript

/-! ## Writing -/

namespace Value

/-- A coordinate that may be out of bounds leads to a member. -/
theorem write_yields {allowed : FaultKind → Prop} (outside : allowed .indexOutOfBounds)
    {member : Value → Prop} {lengths : Nat → Prop} {value new : Value} {place : Int64}
    {rest : List Int64}
    (members : ∀ item, member item → Yields allowed member (item.write new rest))
    (array : value.ArrayOf member lengths) :
    Yields allowed (ArrayOf member lengths) (value.write new (place :: rest)) := by
  have element : Yields allowed member (value.element place) :=
    element_yields (.inl outside) array
  rcases array.exists_items with ⟨items, rfl, itemsHave, lengthHas⟩
  rw [write_cons]
  apply Yields.bind element
  intro item itemHas
  apply Yields.bind (members item itemHas)
  intro updated updatedHas
  show (Value.array (items.set _ updated)).ArrayOf member lengths
  constructor
  · intro other found
    rcases List.mem_or_eq_of_mem_set found with old | rfl
    · exact itemsHave other old
    · exact updatedHas
  · rw [List.length_set]
    exact lengthHas

/-- Where something is written, something was to be read. -/
theorem read_of_write {value new changed : Value} {places : List Int64}
    (written : value.write new places = .ok changed) : ∃ old, value.read places = .ok old := by
  induction places generalizing value changed with
  | nil => exact ⟨value, rfl⟩
  | cons place rest ih =>
      rw [write_cons] at written
      rcases exists_of_bind written with ⟨item, found, written⟩
      rcases exists_of_bind written with ⟨updated, inside, _⟩
      rw [read, found, ok_bind]
      exact ih inside

/-- A vector, or a matrix with rows of such lengths. -/
def Nested (widths : Nat → Prop) : Ty → Value → Prop
  | .vector, value => value.VectorOf fun _ => True
  | .matrix, value => value.MatrixOf (fun _ => True) widths
  | _, _ => False

variable {widths : Nat → Prop} {container : Descriptor} {value new : Value} {places : List Int64}

/-- A row of a matrix is of one of the lengths. -/
theorem read_row (proper : container.Formed fun _ => True) (some : places ≠ [])
    (few : places.length ≤ container.shape.length) (nested : value.Nested widths container.ty)
    (row : (Expr.selected container.shape places.length).ty = .vector) :
    Gives (VectorOf widths) (value.read places) := by
  rcases places with _ | ⟨place, places⟩
  · exact absurd rfl some
  cases proper with
  | int => exact nested.elim
  | float => exact nested.elim
  | string => exact nested.elim
  | vector name _ =>
      rcases places with _ | ⟨second, places⟩
      · cases row
      · simp at few
  | matrix name _ _ =>
      have matrix : value.MatrixOf (fun _ => True) widths := nested
      rcases places with _ | ⟨second, _ | ⟨third, places⟩⟩
      · exact Yields.bind (element_yields (.inl trivial) matrix) fun _ vector => vector
      · cases row
      · simp at few

/-- An array keeps its nesting if a row is replaced by a row and an element by a number. -/
theorem write_nested (proper : container.Formed fun _ => True) (some : places ≠ [])
    (few : places.length ≤ container.shape.length) (nested : value.Nested widths container.ty)
    (row : (Expr.selected container.shape places.length).ty = .vector → new.VectorOf widths)
    (element : (Expr.selected container.shape places.length).ty = .float → new.IsNumber) :
    Gives (Nested widths container.ty) (value.write new places) := by
  rcases places with _ | ⟨place, places⟩
  · exact absurd rfl some
  cases proper with
  | int => exact nested.elim
  | float => exact nested.elim
  | string => exact nested.elim
  | vector name _ =>
      have vector : value.VectorOf fun _ => True := nested
      show Yields _ (VectorOf fun _ => True) _
      rcases places with _ | ⟨second, places⟩
      · apply write_yields trivial ?_ vector
        intro item number
        exact element rfl
      · simp at few
  | matrix name _ _ =>
      have matrix : value.MatrixOf (fun _ => True) widths := nested
      show Yields _ (MatrixOf (fun _ => True) widths) _
      rcases places with _ | ⟨second, _ | ⟨third, places⟩⟩
      · apply write_yields trivial ?_ matrix
        intro item vector
        exact row rfl
      · apply write_yields trivial ?_ matrix
        intro item vector
        apply write_yields trivial ?_ vector
        intro cell number
        exact element rfl
      · simp at few

end Value

/-! ## Coordinates -/

namespace Expr

variable {memory : Memory} {places : List Int64}

theorem evalInts_length {exprs : List Expr} (evaluated : evalInts memory exprs = .ok places) :
    places.length = exprs.length := by
  induction exprs generalizing places with
  | nil =>
      cases evaluated
      rfl
  | cons head tail ih =>
      rw [evalInts] at evaluated
      rcases exists_of_bind evaluated with ⟨value, _, evaluated⟩
      rcases exists_of_bind evaluated with ⟨place, _, evaluated⟩
      rcases exists_of_bind evaluated with ⟨others, rest, evaluated⟩
      cases evaluated
      exact congrArg (· + 1) (ih rest)

/-- The coordinates of an accepted reference select a part of an array in scope. -/
theorem reference_places {chain : ScopeChain} {span : Span} {name : Located String}
    {coordinates : List Expr} (chainProper : chain.Formed fun _ => True)
    (accepted : (Expr.reference span name coordinates).Accepted chain)
    (indexed : coordinates ≠ []) (evaluated : evalInts memory coordinates = .ok places) :
    ∃ container, chain.get? name.item = some container ∧
      (container.Formed fun _ => True) ∧ container.ty.isAggregate = true ∧ places ≠ [] ∧
      places.length ≤ container.shape.length ∧
      ((Expr.reference span name coordinates).check chain).result =
        selected container.shape places.length := by
  rcases reference_clean chainProper.defined
      (fun _ _ clean => (check_proper chainProper clean).isUndefined_eq) accepted with
    ⟨container, visible, few, _, _, result⟩
  have count := evalInts_length evaluated
  rw [← count] at few result
  have proper := chainProper _ _ visible
  have notAll : places ≠ [] := by
    rintro rfl
    exact indexed (List.length_eq_zero_iff.mp count.symm)
  have deep := Nat.lt_of_lt_of_le (List.length_pos_iff.mpr notAll) few
  exact ⟨container, visible, proper, proper.isAggregate deep, notAll, few, result⟩

end Expr

end MatrixScript
