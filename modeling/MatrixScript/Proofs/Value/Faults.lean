import MatrixScript.Builtin
import MatrixScript.Arithmetic
import MatrixScript.Proofs.Value.Parts

/-!
# Faults of operations on values

An operation on values looks up no variable.  Whatever its operands are, it does
not end with the fault that a name has no value; only memory does.
-/

namespace MatrixScript

/-- The computation does not end with the fault that some name has no value. -/
abbrev Nameless {α : Type} (outcome : Except Fault α) : Prop :=
  Yields (· ≠ .undefinedVariable) (fun _ => True) outcome

theorem Nameless.bind {α β : Type} {first : Except Fault α} {next : α → Except Fault β}
    (before : Nameless first) (after : ∀ result, Nameless (next result)) :
    Nameless (first >>= next) :=
  Yields.bind before fun result _ => after result

theorem Nameless.mapM {α β : Type} {change : α → Except Fault β}
    (each : ∀ item, Nameless (change item)) (list : List α) : Nameless (list.mapM change) := by
  have yields := Yields.mapM fun item (_ : item ∈ list) => each item
  exact yields.weaken fun _ _ => trivial

namespace Value

theorem divide_nameless (dividend divisor : Float) : Nameless (divide dividend divisor) := by
  unfold divide
  split
  · exact nofun
  · trivial

theorem scalar_nameless (op : Arith) (left right : Value) : Nameless (scalar op left right) := by
  unfold scalar
  split
  · cases op with
    | div => exact divide_nameless _ _
    | _ => trivial
  · split
    · cases op with
      | div => exact divide_nameless _ _
      | _ => trivial
    · exact nofun

mutual

theorem elementwise_nameless (op : Arith) (left right : Value) :
    Nameless (elementwise op left right) := by
  cases left with
  | array lefts =>
      cases right with
      | array rights =>
          rw [elementwise]
          split
          · exact (elementwiseAll_nameless op lefts rights).bind fun _ => trivial
          · exact nofun
      | _ => exact nofun
  | _ =>
      simp only [elementwise]
      split
      · exact nofun
      · exact scalar_nameless op _ right

theorem elementwiseAll_nameless (op : Arith) (lefts rights : List Value) :
    Nameless (elementwiseAll op lefts rights) := by
  cases lefts with
  | nil => trivial
  | cons left lefts =>
      cases rights with
      | nil => trivial
      | cons right rights =>
          rw [elementwiseAll]
          refine (elementwise_nameless op left right).bind fun head => ?_
          exact (elementwiseAll_nameless op lefts rights).bind fun tail => trivial

end

mutual

theorem mapLeaves_nameless {change : Value → Except Fault Value}
    (each : ∀ leaf, Nameless (change leaf)) (value : Value) :
    Nameless (mapLeaves change value) := by
  cases value with
  | array items =>
      rw [mapLeaves]
      exact (mapLeavesAll_nameless each items).bind fun _ => trivial
  | int number => exact each (.int number)
  | float number => exact each (.float number)
  | string content => exact each (.string content)

theorem mapLeavesAll_nameless {change : Value → Except Fault Value}
    (each : ∀ leaf, Nameless (change leaf)) (items : List Value) :
    Nameless (mapLeavesAll change items) := by
  cases items with
  | nil => trivial
  | cons head tail =>
      rw [mapLeavesAll]
      refine (mapLeaves_nameless each head).bind fun first => ?_
      exact (mapLeavesAll_nameless each tail).bind fun rest => trivial

end

theorem addProducts_nameless (sum : Value) (lefts rights : List Value) :
    Nameless (addProducts sum lefts rights) := by
  fun_induction addProducts sum lefts rights with
  | case1 sum left lefts right rights ih =>
      refine (scalar_nameless .mul left right).bind fun product => ?_
      exact (scalar_nameless .add sum product).bind ih
  | case2 => trivial

theorem innerProduct_nameless (left right : Value) : Nameless (innerProduct left right) := by
  unfold innerProduct
  split
  · split
    · exact addProducts_nameless _ _ _
    · exact nofun
  · exact nofun

theorem rowCells_nameless (row : Value) : Nameless (rowCells row) := by
  cases row with
  | array cells => trivial
  | _ => exact nofun

theorem transpose_nameless (value : Value) : Nameless (transpose value) := by
  unfold transpose
  refine (rowCells_nameless value).bind fun items => ?_
  refine (Nameless.mapM rowCells_nameless items).bind fun rows => ?_
  dsimp only
  split
  · trivial
  · exact nofun

theorem matrixProduct_nameless (left right : Value) : Nameless (matrixProduct left right) := by
  unfold matrixProduct
  split
  · trivial
  · split
    · refine (transpose_nameless right).bind fun transposed => ?_
      refine (rowCells_nameless transposed).bind fun factors => ?_
      refine (rowCells_nameless left).bind fun rows => ?_
      refine Nameless.bind (Nameless.mapM (fun row => ?_) rows) fun _ => trivial
      exact (Nameless.mapM (innerProduct_nameless row) factors).bind fun _ => trivial
    · exact nofun

theorem arrayProduct_nameless (left right : Value) : Nameless (arrayProduct left right) := by
  unfold arrayProduct
  split
  · exact matrixProduct_nameless left right
  · split
    · exact (innerProduct_nameless left right).bind fun _ => trivial
    · exact nofun

theorem plainArith_nameless (op : Arith) (left right : Value) :
    Nameless (plainArith op left right) := by
  unfold plainArith
  split
  · trivial
  · exact elementwise_nameless .add _ _
  · exact elementwise_nameless .sub _ _
  · exact arrayProduct_nameless _ _
  · exact mapLeaves_nameless (fun leaf => scalar_nameless .mul leaf right) _
  · exact mapLeaves_nameless (fun leaf => scalar_nameless .mul left leaf) _
  · exact scalar_nameless .div _ _
  · exact mapLeaves_nameless (fun leaf => scalar_nameless .div leaf right) _
  · exact scalar_nameless op left right

theorem binary_nameless (op : BinaryOp) (left right : Value) :
    Nameless (binary op left right) := by
  unfold binary
  split
  · exact elementwise_nameless op.arith left right
  · exact plainArith_nameless op.arith left right

theorem unary_nameless (op : UnaryOp) (value : Value) : Nameless (unary op value) := by
  cases op with
  | negate =>
      cases value with
      | int number => trivial
      | float number => trivial
      | _ => exact nofun
  | transpose => exact transpose_nameless value

theorem compare_nameless (op : Comparison) (left right : Value) :
    Nameless (compare op left right) := by
  unfold compare order
  split
  · trivial
  · split
    · trivial
    · exact nofun

theorem expectInt_nameless (value : Value) : Nameless value.expectInt := by
  cases value with
  | int number => trivial
  | _ => exact nofun

theorem element_nameless (value : Value) (coordinate : Int64) :
    Nameless (value.element coordinate) := by
  unfold element
  split
  · split
    · rintro ⟨⟩
    · split
      · trivial
      · rintro ⟨⟩
  · rintro ⟨⟩

theorem read_nameless (value : Value) (coordinates : List Int64) :
    Nameless (value.read coordinates) := by
  induction coordinates generalizing value with
  | nil => trivial
  | cons coordinate rest ih =>
      rw [read]
      exact (element_nameless value coordinate).bind ih

theorem write_nameless (value new : Value) (coordinates : List Int64) :
    Nameless (value.write new coordinates) := by
  induction coordinates generalizing value with
  | nil => trivial
  | cons coordinate rest ih =>
      rw [write_cons]
      refine (element_nameless value coordinate).bind fun item => ?_
      exact (ih item).bind fun updated => trivial

end Value

theorem Builtin.build_nameless (builtin : Builtin) (sizes : List Int64) :
    Nameless (builtin.build sizes) := by
  have dimension (size : Int64) : Nameless (builtin.dimension size) := by
    unfold Builtin.dimension
    split
    · exact nofun
    · trivial
  unfold build
  split
  · exact (dimension _).bind fun _ => trivial
  · exact (dimension _).bind fun _ => (dimension _).bind fun _ => trivial
  · exact nofun

end MatrixScript
