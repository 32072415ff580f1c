import MatrixScript.Expr.Evaluation
import MatrixScript.Proofs.Memory
import MatrixScript.Proofs.Precision
import MatrixScript.Proofs.Scope

/-!
# Checked expressions evaluate to what was checked

The check of an expression and its evaluation go through the same tree, one with
descriptors and the other with values.  If the names in scope have values that fit
their descriptors, then so has every accepted expression, unless it meets a fault
that its reading of descriptors leaves open.

`Precision.evaluates` is the statement for both readings at once, by induction on
the expression.  The main statements draw the two conclusions.  Read
exactly, an accepted expression has the very sizes of its descriptor, and only a zero
divisor or a computed index can stop it.  Read loosely, it never meets a value of
the wrong type.
-/

namespace MatrixScript

/-! ## Conditions on the nodes of an expression -/

namespace Expr

/-- A reference here has a coordinate. -/
def Indexed : Expr → Prop
  | .reference _ _ coordinates => coordinates ≠ []
  | _ => True

/-- The elements of a literal here are checked to be numbers. -/
def Numeric (chain : ScopeChain) : Expr → Prop
  | .vector _ elements =>
      ∀ element ∈ elements, (element.check chain).result.ty.isNumeric = true
  | .matrix _ rows =>
      ∀ row ∈ rows, ∀ cell ∈ row.cells, (cell.check chain).result.ty.isNumeric = true
  | _ => True

/-- A literal here has elements in every row, and sizes are spelled as positive integers. -/
def Filled : Expr → Prop
  | .vector _ elements => elements ≠ []
  | .matrix _ rows => rows ≠ [] ∧ ∀ row ∈ rows, row.cells ≠ []
  | .call _ _ arguments =>
      ∀ argument ∈ arguments, ∃ size, argument.literal? = some size ∧ 0 < size
  | _ => True

/-- The product of two vectors. -/
def IsDot (chain : ScopeChain) : Expr → Prop
  | .binary _ left op right =>
      op = .plain .mul ∧ (left.check chain).result.ty = .vector ∧
        (right.check chain).result.ty = .vector
  | _ => False

/-- A reference with a coordinate that is no integer literal. -/
def HasComputedCoordinate : Expr → Prop
  | .reference _ _ coordinates =>
      ∃ coordinate ∈ coordinates, coordinate.literal? = none
  | _ => False

instance (chain : ScopeChain) (expr : Expr) : Decidable (expr.Numeric chain) :=
  match expr with
  | .vector _ elements => inferInstanceAs (Decidable (∀ element ∈ elements, _))
  | .matrix _ rows => inferInstanceAs (Decidable (∀ row ∈ rows, ∀ cell ∈ row.cells, _))
  | .int _ _ | .float _ _ | .string _ _ | .var _ _ | .reference _ _ _ | .call _ _ _
  | .binary _ _ _ _ | .compare _ _ _ _ | .unary _ _ _ => isTrue trivial

instance (chain : ScopeChain) (expr : Expr) : Decidable (expr.IsDot chain) :=
  match expr with
  | .binary _ _ _ _ => inferInstanceAs (Decidable (_ ∧ _ ∧ _))
  | .int _ _ | .float _ _ | .string _ _ | .var _ _ | .vector _ _ | .matrix _ _
  | .reference _ _ _ | .call _ _ _ | .compare _ _ _ _ | .unary _ _ _ => isFalse id

theorem Filled.sizesIn {expr : Expr} (filled : expr.Filled) : expr.SizesIn Dim.Positive := by
  cases expr with
  | vector span elements => exact List.length_pos_iff.mpr filled
  | matrix span rows =>
      rcases filled with ⟨someRows, someCells⟩
      refine ⟨List.length_pos_iff.mpr someRows, ?_⟩
      intro row member
      exact List.length_pos_iff.mpr (someCells row member)
  | call span builtin arguments =>
      intro argument member
      rcases filled argument member with ⟨size, spelled, above⟩
      have aboveInt := Int64.lt_iff_toInt_lt.mp above
      have notNegative : ¬ size < 0 := by
        rw [Int64.lt_iff_toInt_lt]
        omega
      simp only [sizeOfArgument, spelled, notNegative, if_false, Dim.Positive]
      simp at aboveInt
      omega
  | _ => trivial

end Expr

/-! ## Lists of expressions -/

namespace Expr

variable {allowed : FaultKind → Prop} {memory : Memory}

theorem evalAll_yields {good : Value → Prop} {exprs : List Expr}
    (each : ∀ expr ∈ exprs, Yields allowed good (expr.eval memory)) :
    Yields allowed
      (fun items => (∀ item ∈ items, good item) ∧ items.length = exprs.length)
      (evalAll memory exprs) := by
  induction exprs with
  | nil =>
      rw [evalAll]
      exact ⟨by simp, rfl⟩
  | cons head tail ih =>
      simp only [List.forall_mem_cons] at each
      rw [evalAll]
      refine Yields.bind each.1 fun first firstGood => ?_
      refine Yields.bind (ih each.2) ?_
      rintro rest ⟨restGood, restLength⟩
      exact ⟨List.forall_mem_cons.mpr ⟨firstGood, restGood⟩, by simp [restLength]⟩

theorem rowEvalAll_yields {good : Value → Prop} {widths : Nat → Prop} {rows : List Row}
    (each : ∀ row ∈ rows, ∀ cell ∈ row.cells, Yields allowed good (cell.eval memory))
    (even : ∀ row ∈ rows, widths row.cells.length) :
    Yields allowed
      (fun items => (∀ item ∈ items, item.ArrayOf good widths) ∧
        items.length = rows.length)
      (Row.evalAll memory rows) := by
  induction rows with
  | nil =>
      rw [Row.evalAll]
      exact ⟨by simp, rfl⟩
  | cons head tail ih =>
      cases head with
      | mk span cells =>
          simp only [List.forall_mem_cons] at each even
          rw [Row.evalAll]
          refine Yields.bind (evalAll_yields each.1) ?_
          rintro items ⟨itemsGood, itemsLength⟩
          refine Yields.bind (ih each.2 even.2) ?_
          rintro rest ⟨restGood, restLength⟩
          refine ⟨List.forall_mem_cons.mpr ⟨⟨itemsGood, ?_⟩, restGood⟩, by simp [restLength]⟩
          rw [itemsLength]
          exact even.1

theorem eval_denotes {expr : Expr} {number : Int64}
    (evaluates : expr.eval memory = .ok (.int number)) : expr.Denotes number := by
  intro literal spelled
  cases expr with
  | int span value =>
      rw [eval] at evaluates
      cases spelled
      cases evaluates
      rfl
  | _ => simp [literal?] at spelled

theorem evalInts_yields {exprs : List Expr}
    (each : ∀ expr ∈ exprs,
      Yields allowed (fun value => ∃ number, value = .int number) (expr.eval memory)) :
    Yields allowed (fun numbers => List.Forall₂ Denotes exprs numbers)
      (evalInts memory exprs) := by
  induction exprs with
  | nil =>
      rw [evalInts]
      exact .nil
  | cons head tail ih =>
      simp only [List.forall_mem_cons] at each
      rw [evalInts]
      cases evaluates : head.eval memory with
      | error fault =>
          have headYields := each.1
          rw [evaluates] at headYields
          exact headYields
      | ok value =>
          have headYields := each.1
          rw [evaluates] at headYields
          rcases headYields with ⟨number, rfl⟩
          simp only [ok_bind, Value.expectInt]
          refine Yields.bind (ih each.2) ?_
          intro numbers denote
          exact .cons (eval_denotes evaluates) denote

end Expr

/-! ## Both readings at once -/

namespace Precision

/-- The names in scope have values that fit their descriptors. -/
structure Agrees (precision : Precision) (chain : ScopeChain) (memory : Memory) : Prop where
  formed : chain.Formed precision.Dims
  fits : ∀ name descriptor, chain.get? name = some descriptor →
    ∃ value, memory.lookup? name = some value ∧ precision.Fits descriptor value

/-- What a reading asks of every node of an expression. -/
structure Suits (precision : Precision) (chain : ScopeChain) (computed : Prop)
    (node : Expr) : Prop where
  indexed : node.Indexed
  numeric : node.Numeric chain
  filled : precision = .exact → node.Filled
  noDot : precision = .loose → ¬ node.IsDot chain
  literal : node.HasComputedCoordinate → computed

variable {precision : Precision} {computed : Prop} {chain : ScopeChain} {memory : Memory}

theorem Suits.sizesIn {node : Expr} (suits : precision.Suits chain computed node) :
    node.SizesIn precision.Dims := by
  cases precision with
  | exact => exact (suits.filled rfl).sizesIn
  | loose =>
      cases node with
      | vector span elements => trivial
      | matrix span rows => exact ⟨trivial, fun _ _ => trivial⟩
      | call span builtin arguments => exact fun _ _ => trivial
      | _ => trivial

theorem check_formed_of_suits {expr : Expr} (agrees : precision.Agrees chain memory)
    (suits : ∀ node ∈ expr.nodes, precision.Suits chain computed node)
    (accepted : expr.Accepted chain) : (expr.check chain).result.Formed precision.Dims :=
  Expr.check_formed agrees.formed expr (fun node member => (suits node member).sizesIn)
    accepted

theorem Agrees.get_fits {name : String} {descriptor : Descriptor}
    (agrees : precision.Agrees chain memory) (found : chain.get? name = some descriptor) :
    Yields (precision.Allows computed) (precision.Fits descriptor)
      (memory.get (.var name)) := by
  rcases agrees.fits name descriptor found with ⟨value, bound, fits⟩
  simp only [Memory.get, Place.name, bound]
  exact fits

/-- If the expression is accepted, it yields a value that fits its descriptor. -/
structure Evaluates (precision : Precision) (computed : Prop) (chain : ScopeChain)
    (memory : Memory) (expr : Expr) : Prop where
  formed : expr.Accepted chain → (expr.check chain).result.Formed precision.Dims
  fits : expr.Accepted chain → Yields (precision.Allows computed)
    (precision.Fits (expr.check chain).result) (expr.eval memory)

/-- Expressions that are accepted as integers evaluate to integers. -/
theorem evalInts_of_accepted {exprs : List Expr}
    (ints : ∀ expr ∈ exprs, expr.AcceptedInt chain)
    (each : ∀ expr ∈ exprs, precision.Evaluates computed chain memory expr) :
    Yields (precision.Allows computed)
      (fun numbers => List.Forall₂ Expr.Denotes exprs numbers)
      (Expr.evalInts memory exprs) := by
  apply Expr.evalInts_yields
  intro expr member
  rcases ints expr member with ⟨accepted, isInt⟩
  exact ((each expr member).fits accepted).weaken fun _ fits => fits.exists_int isInt

theorem vector_fits {span : Span} {elements : List Expr}
    (here : precision.Suits chain computed (.vector span elements))
    (each : ∀ element ∈ elements, precision.Evaluates computed chain memory element)
    (accepted : (Expr.vector span elements).Accepted chain) :
    Yields (precision.Allows computed)
      (precision.Fits ((Expr.vector span elements).check chain).result)
      ((Expr.vector span elements).eval memory) := by
  simp only [Expr.Accepted, Expr.check, Checked.diagnostics_bind,
    Checked.diagnostics_pure, List.append_nil, Expr.checkAll_clean] at accepted
  simp only [Expr.eval, Expr.check, Checked.result_bind, Checked.result_pure]
  have numbers : ∀ element ∈ elements,
      Yields (precision.Allows computed) Value.IsNumber (element.eval memory) := by
    intro element member
    have yields := (each element member).fits (accepted element member)
    exact yields.weaken fun _ fits => fits.isNumber (here.numeric element member)
  refine Yields.bind (Expr.evalAll_yields numbers) ?_
  rintro items ⟨itemNumbers, itemCount⟩
  refine .vector ⟨itemNumbers, ?_⟩
  rw [itemCount]
  cases precision with
  | exact => exact ⟨rfl, List.length_pos_iff.mpr (here.filled rfl)⟩
  | loose => trivial

theorem matrix_fits {span : Span} {rows : List Row}
    (here : precision.Suits chain computed (.matrix span rows))
    (each : ∀ row ∈ rows, ∀ cell ∈ row.cells, precision.Evaluates computed chain memory cell)
    (accepted : (Expr.matrix span rows).Accepted chain) :
    Yields (precision.Allows computed)
      (precision.Fits ((Expr.matrix span rows).check chain).result)
      ((Expr.matrix span rows).eval memory) := by
  simp only [Expr.Accepted, Expr.check, Checked.diagnostics_bind,
    List.append_eq_nil_iff, Expr.rowCheckAll_clean] at accepted
  rcases accepted with ⟨cellsAccepted, rowsClean⟩
  rcases Expr.checkRows_clean rowsClean with ⟨width, even, _, result⟩
  simp only [Expr.eval, Expr.check, Checked.result_bind, result]
  have numbers : ∀ row ∈ rows, ∀ cell ∈ row.cells,
      Yields (precision.Allows computed) Value.IsNumber (cell.eval memory) := by
    intro row inRows cell inRow
    have yields := (each row inRows cell inRow).fits (cellsAccepted row inRows cell inRow)
    exact yields.weaken fun _ fits => fits.isNumber (here.numeric row inRows cell inRow)
  have widths : ∀ row ∈ rows, precision.Admits (.known width) row.cells.length := by
    intro row member
    rw [even row member]
    cases precision with
    | exact =>
        have filled := (here.filled rfl).2 row member
        exact ⟨rfl, even row member ▸ List.length_pos_iff.mpr filled⟩
    | loose => trivial
  refine Yields.bind (Expr.rowEvalAll_yields numbers widths) ?_
  rintro items ⟨itemRows, itemCount⟩
  refine .matrix ⟨itemRows, ?_⟩
  rw [itemCount]
  cases precision with
  | exact => exact ⟨rfl, List.length_pos_iff.mpr (here.filled rfl).1⟩
  | loose => trivial

theorem reference_fits {span : Span} {name : Located String} {coordinates : List Expr}
    (agrees : precision.Agrees chain memory)
    (here : precision.Suits chain computed (.reference span name coordinates))
    (each : ∀ coordinate ∈ coordinates, precision.Evaluates computed chain memory coordinate)
    (accepted : (Expr.reference span name coordinates).Accepted chain) :
    Yields (precision.Allows computed)
      (precision.Fits ((Expr.reference span name coordinates).check chain).result)
      ((Expr.reference span name coordinates).eval memory) := by
  have defined : ∀ coordinate ∈ coordinates, coordinate.Accepted chain →
      (coordinate.check chain).result.isUndefined = false := by
    intro coordinate member coordinateAccepted
    exact ((each coordinate member).formed coordinateAccepted).isUndefined_eq
  rcases Expr.reference_clean agrees.formed.defined defined accepted with
    ⟨container, found, few, ints, checked, result⟩
  rw [result, Expr.eval]
  refine Yields.bind (evalInts_of_accepted ints each) ?_
  intro places denote
  rcases agrees.fits _ _ found with ⟨value, bound, fits⟩
  simp only [Memory.get, Place.name, bound]
  refine read_fits fits here.indexed few checked ?_ denote
  intro coordinate member notLiteral
  exact here.literal ⟨coordinate, member, notLiteral⟩

theorem call_fits {span : Span} {builtin : Builtin} {arguments : List Expr}
    (here : precision.Suits chain computed (.call span builtin arguments))
    (each : ∀ argument ∈ arguments, precision.Evaluates computed chain memory argument)
    (accepted : (Expr.call span builtin arguments).Accepted chain) :
    Yields (precision.Allows computed)
      (precision.Fits ((Expr.call span builtin arguments).check chain).result)
      ((Expr.call span builtin arguments).eval memory) := by
  have defined : ∀ argument ∈ arguments, argument.Accepted chain →
      (argument.check chain).result.isUndefined = false := by
    intro argument member argumentAccepted
    exact ((each argument member).formed argumentAccepted).isUndefined_eq
  rcases Expr.call_clean defined accepted with ⟨ints, constructorClean, result⟩
  rw [result, Expr.eval]
  refine Yields.bind (evalInts_of_accepted ints each) ?_
  intro sizes denote
  exact build_fits constructorClean here.filled denote

theorem combine_fits {span : Span} {left right : Expr} {op : BinaryOp}
    (here : precision.Suits chain computed (.binary span left op right))
    (first : precision.Evaluates computed chain memory left)
    (second : precision.Evaluates computed chain memory right)
    (accepted : (Expr.binary span left op right).Accepted chain) :
    Yields (precision.Allows computed)
      (precision.Fits ((Expr.binary span left op right).check chain).result)
      ((Expr.binary span left op right).eval memory) := by
  simp only [Expr.Accepted, Expr.check, Checked.diagnostics_bind,
    List.append_eq_nil_iff] at accepted
  rcases accepted with ⟨leftAccepted, rightAccepted, combinationClean⟩
  have combination := Signature.Combination.of_clean (first.formed leftAccepted)
    (second.formed rightAccepted) combinationClean
  simp only [Expr.eval, Expr.check, Checked.result_bind]
  refine Yields.bind (first.fits leftAccepted) fun leftValue leftFits => ?_
  refine Yields.bind (second.fits rightAccepted) fun rightValue rightFits => ?_
  exact binary_fits combination here.noDot leftFits rightFits

theorem comparison_fits {span : Span} {left right : Expr} {op : Comparison}
    (first : precision.Evaluates computed chain memory left)
    (second : precision.Evaluates computed chain memory right)
    (accepted : (Expr.compare span left op right).Accepted chain) :
    Yields (precision.Allows computed)
      (precision.Fits ((Expr.compare span left op right).check chain).result)
      ((Expr.compare span left op right).eval memory) := by
  simp only [Expr.Accepted, Expr.check, Checked.diagnostics_bind,
    List.append_eq_nil_iff] at accepted
  rcases accepted with ⟨leftAccepted, rightAccepted, comparisonClean⟩
  rcases Expr.checkComparison_clean (first.formed leftAccepted) (second.formed rightAccepted)
      comparisonClean with ⟨result, operands⟩
  simp only [Expr.eval, Expr.check, Checked.result_bind, result]
  refine Yields.bind (first.fits leftAccepted) fun leftValue leftFits => ?_
  refine Yields.bind (second.fits rightAccepted) fun rightValue rightFits => ?_
  exact compare_fits operands leftFits rightFits

theorem unary_fits {span : Span} {op : UnaryOp} {operand : Expr}
    (evaluates : precision.Evaluates computed chain memory operand)
    (accepted : (Expr.unary span op operand).Accepted chain) :
    Yields (precision.Allows computed)
      (precision.Fits ((Expr.unary span op operand).check chain).result)
      ((Expr.unary span op operand).eval memory) := by
  simp only [Expr.Accepted, Expr.check, Checked.diagnostics_bind,
    List.append_eq_nil_iff] at accepted
  rcases accepted with ⟨operandAccepted, unaryClean⟩
  simp only [Expr.eval, Expr.check, Checked.result_bind]
  refine Yields.bind (evaluates.fits operandAccepted) fun value fits => ?_
  rcases Expr.checkUnary_clean (evaluates.formed operandAccepted) unaryClean with
    ⟨rfl, numeric, result⟩ | ⟨rfl, rows, columns, name, operandIs, result⟩
  · rw [result]
    exact negate_fits numeric fits
  · rw [result]
    rw [operandIs] at fits
    exact transpose_fits fits

/-- Every part of a list of expressions suits the reading if the list does. -/
theorem suits_of_mem {parts : List Expr} {part : Expr}
    (suits : ∀ node ∈ Expr.nodesOfAll parts, precision.Suits chain computed node)
    (member : part ∈ parts) : ∀ node ∈ part.nodes, precision.Suits chain computed node :=
  fun node found => suits node (Expr.nodes_subset_nodesOfAll member found)

/-- An expression evaluates as its descriptor says, if all its nodes suit the reading. -/
theorem evaluates (agrees : precision.Agrees chain memory) (expr : Expr)
    (suits : ∀ node ∈ expr.nodes, precision.Suits chain computed node) :
    precision.Evaluates computed chain memory expr := by
  refine ⟨check_formed_of_suits agrees suits, ?_⟩
  induction expr with
  | int span value =>
      intro _
      rw [Expr.eval, Expr.check]
      exact .int
  | float span value =>
      intro _
      rw [Expr.eval, Expr.check]
      exact .float trivial
  | string span value =>
      intro _
      rw [Expr.eval, Expr.check]
      exact .string
  | var span name =>
      intro accepted
      rw [Expr.eval]
      exact agrees.get_fits (Expr.checkVariable_clean accepted)
  | vector span elements ih =>
      apply vector_fits (suits _ (Expr.self_mem_nodes _))
      intro element member
      have inside := suits_of_mem (List.forall_mem_cons.mp suits).2 member
      exact ⟨check_formed_of_suits agrees inside, ih element member inside⟩
  | matrix span rows ih =>
      apply matrix_fits (suits _ (Expr.self_mem_nodes _))
      intro row inRows cell inRow
      have inside : ∀ node ∈ cell.nodes, precision.Suits chain computed node := by
        intro node found
        exact suits node
          (List.mem_cons_of_mem _ (Expr.nodes_subset_rowNodes inRows inRow found))
      exact ⟨check_formed_of_suits agrees inside, ih row inRows cell inRow inside⟩
  | reference span name coordinates ih =>
      apply reference_fits agrees (suits _ (Expr.self_mem_nodes _))
      intro coordinate member
      have inside := suits_of_mem (List.forall_mem_cons.mp suits).2 member
      exact ⟨check_formed_of_suits agrees inside, ih coordinate member inside⟩
  | call span builtin arguments ih =>
      apply call_fits (suits _ (Expr.self_mem_nodes _))
      intro argument member
      have inside := suits_of_mem (List.forall_mem_cons.mp suits).2 member
      exact ⟨check_formed_of_suits agrees inside, ih argument member inside⟩
  | binary span left op right leftIH rightIH =>
      have leftSuits : ∀ node ∈ left.nodes, precision.Suits chain computed node :=
        fun node member => suits node (by simp [Expr.nodes, member])
      have rightSuits : ∀ node ∈ right.nodes, precision.Suits chain computed node :=
        fun node member => suits node (by simp [Expr.nodes, member])
      exact combine_fits (suits _ (Expr.self_mem_nodes _))
        ⟨check_formed_of_suits agrees leftSuits, leftIH leftSuits⟩
        ⟨check_formed_of_suits agrees rightSuits, rightIH rightSuits⟩
  | compare span left op right leftIH rightIH =>
      have leftSuits : ∀ node ∈ left.nodes, precision.Suits chain computed node :=
        fun node member => suits node (by simp [Expr.nodes, member])
      have rightSuits : ∀ node ∈ right.nodes, precision.Suits chain computed node :=
        fun node member => suits node (by simp [Expr.nodes, member])
      exact comparison_fits ⟨check_formed_of_suits agrees leftSuits, leftIH leftSuits⟩
        ⟨check_formed_of_suits agrees rightSuits, rightIH rightSuits⟩
  | unary span op operand ih =>
      have inside : ∀ node ∈ operand.nodes, precision.Suits chain computed node :=
        fun node member => suits node (by simp [Expr.nodes, member])
      exact unary_fits ⟨check_formed_of_suits agrees inside, ih inside⟩

end Precision

/-! ## Exact sizes -/

/-- The descriptor of a number, of a text, or of an array of known positive sizes. -/
abbrev Descriptor.Sized (descriptor : Descriptor) : Prop :=
  descriptor.Formed Dim.Positive

/-- The value is of the type of the descriptor and has just its sizes. -/
def Value.Conforms (value : Value) (descriptor : Descriptor) : Prop :=
  match descriptor.ty, descriptor.shape with
  | .int, [] => ∃ number, value = .int number
  | .float, [] => value.IsNumber
  | .string, [] => ∃ content, value = .string content
  | .vector, [.known length] => value.VectorOf (· = length)
  | .matrix, [.known rows, .known columns] => value.MatrixOf (· = rows) (· = columns)
  | _, _ => False

theorem Precision.exact_fits_iff {descriptor : Descriptor} {value : Value}
    (sized : descriptor.Sized) :
    Precision.exact.Fits descriptor value ↔ value.Conforms descriptor := by
  have lengths {size length : Nat} (positive : 0 < size) :
      Precision.exact.Admits (.known size) length ↔ length = size := by
    constructor
    · rintro ⟨same, _⟩
      cases same
      rfl
    · rintro rfl
      exact ⟨rfl, positive⟩
  constructor
  · intro fits
    cases fits with
    | int => exact ⟨_, rfl⟩
    | float number => exact number
    | string => exact ⟨_, rfl⟩
    | vector vector =>
        rcases sized with _ | _ | _ | @⟨_ | _, _, positive⟩
        · exact vector.weaken (fun _ number => number) fun _ => (lengths positive).mp
        · exact positive.elim
    | matrix matrix =>
        rcases sized with _ | _ | _ | _ | @⟨_ | _, _ | _, _, rowsPositive, columnsPositive⟩
        · refine matrix.weaken (fun _ row => ?_) fun _ => (lengths rowsPositive).mp
          exact row.weaken (fun _ number => number) fun _ => (lengths columnsPositive).mp
        · exact columnsPositive.elim
        · exact rowsPositive.elim
        · exact rowsPositive.elim
  · intro conforms
    rcases sized with _ | _ | _ | @⟨_ | _, _, positive⟩ |
      @⟨_ | _, _ | _, _, rowsPositive, columnsPositive⟩
    · rcases conforms with ⟨number, rfl⟩
      exact .int
    · exact .float conforms
    · rcases conforms with ⟨content, rfl⟩
      exact .string
    · have vector : value.VectorOf (· = _) := conforms
      exact .vector (vector.weaken (fun _ number => number)
        fun _ => (lengths positive).mpr)
    · exact positive.elim
    · have matrix : value.MatrixOf (· = _) (· = _) := conforms
      refine .matrix (matrix.weaken (fun _ row => ?_) fun _ => (lengths rowsPositive).mpr)
      exact row.weaken (fun _ number => number) fun _ => (lengths columnsPositive).mpr
    · exact columnsPositive.elim
    · exact rowsPositive.elim
    · exact rowsPositive.elim

section Exact

variable {chain : ScopeChain} {memory : Memory} {expr : Expr}

theorem Precision.agrees_of_visible
    (visible : ∀ name descriptor, chain.get? name = some descriptor →
      descriptor.Sized ∧
        ∃ value, memory.lookup? name = some value ∧ value.Conforms descriptor) :
    Precision.exact.Agrees chain memory := by
  refine ⟨fun name descriptor found => (visible name descriptor found).1, ?_⟩
  intro name descriptor found
  rcases visible name descriptor found with ⟨sized, value, bound, conforms⟩
  exact ⟨value, bound, (Precision.exact_fits_iff sized).mpr conforms⟩

theorem Precision.exact_suits (indexed : ∀ node ∈ expr.nodes, node.Indexed)
    (numeric : ∀ node ∈ expr.nodes, node.Numeric chain)
    (filled : ∀ node ∈ expr.nodes, node.Filled) :
    ∀ node ∈ expr.nodes, Precision.exact.Suits chain
      (∃ node ∈ expr.nodes, node.HasComputedCoordinate) node := by
  intro node member
  exact {
    indexed := indexed node member
    numeric := numeric node member
    filled := fun _ => filled node member
    noDot := by rintro ⟨⟩
    literal := fun computed => ⟨node, member, computed⟩ }

end Exact

/--
Static shapes are exact.  Where every name in scope has a sized descriptor and a value that
conforms to it, an accepted expression with filled literals of numbers has a sized
descriptor, and either a value that conforms to it, or a fault: a zero divisor, or an
index out of bounds if some coordinate is computed.
-/
theorem eval_conforms {chain : ScopeChain} {memory : Memory} {expr : Expr}
    (visible : ∀ name descriptor, chain.get? name = some descriptor →
      descriptor.Sized ∧
        ∃ value, memory.lookup? name = some value ∧ value.Conforms descriptor)
    (indexed : ∀ node ∈ expr.nodes, node.Indexed)
    (numeric : ∀ node ∈ expr.nodes, node.Numeric chain)
    (filled : ∀ node ∈ expr.nodes, node.Filled)
    (accepted : (expr.check chain).diagnostics = []) :
    (expr.check chain).result.Sized ∧
      ((∃ value, expr.eval memory = .ok value ∧
          value.Conforms (expr.check chain).result) ∨
        ∃ fault, expr.eval memory = .error fault ∧
          (fault.kind = .divisionByZero ∨
            (fault.kind = .indexOutOfBounds ∧
              ∃ node ∈ expr.nodes, node.HasComputedCoordinate))) := by
  have agrees := Precision.agrees_of_visible visible
  have suits := Precision.exact_suits indexed numeric filled
  have sized := Precision.check_formed_of_suits agrees suits accepted
  refine ⟨sized, ?_⟩
  have yields := (Precision.evaluates agrees expr suits).fits accepted
  cases evaluates : expr.eval memory with
  | ok value =>
      rw [evaluates] at yields
      exact .inl ⟨value, rfl, (Precision.exact_fits_iff sized).mp yields⟩
  | error fault =>
      rw [evaluates] at yields
      refine .inr ⟨fault, rfl, ?_⟩
      cases fault with
      | divisionByZero => exact .inl rfl
      | indexOutOfBounds index length =>
          rcases yields with impossible | computed
          · cases impossible
          · exact .inr ⟨rfl, computed⟩
      | shapeMismatch left right => cases yields
      | invalidArgument message => cases yields
      | undefinedVariable name => cases yields
      | wrongType expected found => cases yields
      | unsupported operation left right => cases yields

namespace Sample

/-- A square matrix and an index. -/
def squareChain : ScopeChain :=
  (ScopeChain.root.put "m" (.matrix (.known 2) (.known 2))).put "i" (.scalar .int)

def squareMemory : Memory :=
  (Memory.root.bind "m"
    (.array [.array [.int 1, .int 2], .array [.int 3, .int 4]])).bind "i" (.int 1)

/-- The expression `m' * [[i, 2], [0, 1]] + eye(2) * m[i, 0]`. -/
def squareExpr : Expr :=
  .binary default
    (.binary default (.unary default .transpose (.var default "m")) (.plain .mul)
      (.matrix default
        [.mk default [.var default "i", .int default 2],
          .mk default [.int default 0, .int default 1]]))
    (.plain .add)
    (.binary default (.call default .eye [.int default 2]) (.plain .mul)
      (.reference default ⟨"m", default⟩ [.var default "i", .int default 0]))

theorem square_visible (name : String) (descriptor : Descriptor)
    (found : squareChain.get? name = some descriptor) :
    descriptor.Sized ∧
      ∃ value, squareMemory.lookup? name = some value ∧ value.Conforms descriptor := by
  simp only [squareChain, ScopeChain.get?_put, ScopeChain.get?_root] at found
  simp only [squareMemory, Memory.lookup?_bind]
  split at found
  · rename_i isIndex
    cases found
    exact ⟨.int _, _, if_pos isIndex, ⟨1, rfl⟩⟩
  · rename_i notIndex
    rw [if_neg notIndex]
    split at found
    · rename_i isMatrix
      cases found
      refine ⟨.matrix _ Nat.two_pos Nat.two_pos, _, if_pos isMatrix, ?_⟩
      simp [Value.Conforms, Descriptor.matrix, Descriptor.of, Value.IsNumber]
    · cases found

end Sample

theorem eval_conforms_square :
    (Sample.squareExpr.check Sample.squareChain).diagnostics = [] ∧
    (Sample.squareExpr.check Sample.squareChain).result.Sized ∧
      ((∃ value, Sample.squareExpr.eval Sample.squareMemory = .ok value ∧
          value.Conforms (Sample.squareExpr.check Sample.squareChain).result) ∨
        ∃ fault, Sample.squareExpr.eval Sample.squareMemory = .error fault ∧
          (fault.kind = .divisionByZero ∨
            (fault.kind = .indexOutOfBounds ∧
              ∃ node ∈ Sample.squareExpr.nodes, node.HasComputedCoordinate))) := by
  have accepted : (Sample.squareExpr.check Sample.squareChain).diagnostics = [] := by
    decide +kernel
  have index : ((Expr.var default "i").check Sample.squareChain).result.ty = .int := by
    decide +kernel
  have literal (number : Int64) :
      ((Expr.int default number).check Sample.squareChain).result.ty = .int := rfl
  refine ⟨accepted, eval_conforms Sample.square_visible ?_ ?_ ?_ accepted⟩
  · simp [Sample.squareExpr, Expr.nodes, Expr.nodesOfAll, Row.nodesOfAll, Expr.Indexed]
  · simp [Sample.squareExpr, Expr.nodes, Expr.nodesOfAll, Row.nodesOfAll, Expr.Numeric,
      Row.cells, Ty.isNumeric, index, literal]
  · simp [Sample.squareExpr, Expr.nodes, Expr.nodesOfAll, Row.nodesOfAll, Expr.Filled,
      Row.cells, Expr.literal?]

/-! ## Types whatever the sizes -/

/-- The value is of the type, of any sizes. -/
def Value.HasKind : Ty → Value → Prop
  | .int, value => ∃ number, value = .int number
  | .float, value => value.IsNumber
  | .string, value => ∃ content, value = .string content
  | .vector, value => value.VectorOf fun _ => True
  | .matrix, value => value.MatrixOf (fun _ => True) fun _ => True
  | .undefined, _ => False

theorem Value.HasKind.isNumber {ty : Ty} {value : Value} (kind : value.HasKind ty)
    (numeric : ty.isNumeric = true) : value.IsNumber := by
  rcases Ty.isNumeric_iff.mp numeric with rfl | rfl
  · rcases kind with ⟨number, rfl⟩
    trivial
  · exact kind

/-- The descriptor of a value: its shape has the rank of its type and any dimensions. -/
abbrev Descriptor.Proper (descriptor : Descriptor) : Prop :=
  descriptor.Formed fun _ => True

theorem Precision.hasKind_of_fits {descriptor : Descriptor} {value : Value}
    (fits : Precision.loose.Fits descriptor value) : value.HasKind descriptor.ty := by
  cases fits with
  | int => exact ⟨_, rfl⟩
  | float number => exact number
  | string => exact ⟨_, rfl⟩
  | vector vector => exact vector
  | matrix matrix => exact matrix

theorem Precision.loose_fits_iff {descriptor : Descriptor} {value : Value}
    (proper : descriptor.Proper) :
    Precision.loose.Fits descriptor value ↔ value.HasKind descriptor.ty := by
  constructor
  · exact hasKind_of_fits
  · intro kind
    cases proper with
    | int name =>
        rcases kind with ⟨number, rfl⟩
        exact .int
    | float name => exact .float kind
    | string name =>
        rcases kind with ⟨content, rfl⟩
        exact .string
    | vector name _ => exact .vector kind
    | matrix name _ _ => exact .matrix kind

/--
No wrong types at run time, whatever the sizes.  Where every name in scope has a
proper descriptor and a value of its type, an accepted expression with literals of
numbers and without products of two vectors has a value of its type, or meets a
fault of sizes, of a zero divisor, of an index or of an argument.
-/
theorem eval_hasKind {chain : ScopeChain} {memory : Memory} {expr : Expr}
    (visible : ∀ name descriptor, chain.get? name = some descriptor →
      descriptor.Proper ∧
        ∃ value, memory.lookup? name = some value ∧ value.HasKind descriptor.ty)
    (indexed : ∀ node ∈ expr.nodes, node.Indexed)
    (numeric : ∀ node ∈ expr.nodes, node.Numeric chain)
    (noDot : ∀ node ∈ expr.nodes, ¬ node.IsDot chain)
    (accepted : (expr.check chain).diagnostics = []) :
    (∃ value, expr.eval memory = .ok value ∧
        value.HasKind (expr.check chain).result.ty) ∨
      ∃ fault, expr.eval memory = .error fault ∧
        (fault.kind = .shapeMismatch ∨ fault.kind = .divisionByZero ∨
          fault.kind = .indexOutOfBounds ∨ fault.kind = .invalidArgument) := by
  have agrees : Precision.loose.Agrees chain memory := by
    refine ⟨fun name descriptor found => (visible name descriptor found).1, ?_⟩
    intro name descriptor found
    rcases visible name descriptor found with ⟨proper, value, bound, kind⟩
    exact ⟨value, bound, (Precision.loose_fits_iff proper).mpr kind⟩
  have suits : ∀ node ∈ expr.nodes, Precision.loose.Suits chain True node := by
    intro node member
    exact {
      indexed := indexed node member
      numeric := numeric node member
      filled := nofun
      noDot := fun _ => noDot node member
      literal := fun _ => trivial }
  have proper := Precision.check_formed_of_suits agrees suits accepted
  have yields := (Precision.evaluates agrees expr suits).fits accepted
  cases evaluates : expr.eval memory with
  | ok value =>
      rw [evaluates] at yields
      exact .inl ⟨value, rfl, (Precision.loose_fits_iff proper).mp yields⟩
  | error fault =>
      rw [evaluates] at yields
      refine .inr ⟨fault, rfl, ?_⟩
      cases fault with
      | shapeMismatch left right => exact .inl rfl
      | divisionByZero => exact .inr (.inl rfl)
      | indexOutOfBounds index length => exact .inr (.inr (.inl rfl))
      | invalidArgument message => exact .inr (.inr (.inr rfl))
      | undefinedVariable name => cases yields
      | wrongType expected found => cases yields
      | unsupported operation left right => cases yields

namespace Sample

/-- A matrix without known sizes, said to have no columns, and a number. -/
def raggedChain : ScopeChain :=
  (ScopeChain.root.put "m" (.matrix .unbounded (.known 0))).put "k" (.scalar .int)

def raggedMemory : Memory :=
  (Memory.root.bind "m" (.array [.array [.int 1], .array []])).bind "k" (.int 2)

/-- The expression `m' * (m + zeros(k, 0))`. -/
def raggedExpr : Expr :=
  .binary default (.unary default .transpose (.var default "m")) (.plain .mul)
    (.binary default (.var default "m") (.plain .add)
      (.call default .zeros [.var default "k", .int default 0]))

end Sample

theorem eval_hasKind_ragged :
    (Sample.raggedExpr.check Sample.raggedChain).diagnostics = [] ∧
    ((∃ value, Sample.raggedExpr.eval Sample.raggedMemory = .ok value ∧
        value.HasKind (Sample.raggedExpr.check Sample.raggedChain).result.ty) ∨
      ∃ fault, Sample.raggedExpr.eval Sample.raggedMemory = .error fault ∧
        (fault.kind = .shapeMismatch ∨ fault.kind = .divisionByZero ∨
          fault.kind = .indexOutOfBounds ∨ fault.kind = .invalidArgument)) := by
  have accepted : (Sample.raggedExpr.check Sample.raggedChain).diagnostics = [] := by
    decide +kernel
  refine ⟨accepted, eval_hasKind ?_ ?_ ?_ ?_ accepted⟩
  · intro name descriptor found
    simp only [Sample.raggedChain, ScopeChain.get?_put, ScopeChain.get?_root] at found
    simp only [Sample.raggedMemory, Memory.lookup?_bind]
    split at found
    · rename_i isNumber
      cases found
      exact ⟨.int _, _, if_pos isNumber, ⟨2, rfl⟩⟩
    · rename_i notNumber
      rw [if_neg notNumber]
      split at found
      · rename_i isMatrix
        cases found
        refine ⟨.matrix _ trivial trivial, _, if_pos isMatrix, ?_⟩
        simp [Value.HasKind, Descriptor.matrix, Descriptor.of, Value.IsNumber]
      · cases found
  · simp [Sample.raggedExpr, Expr.nodes, Expr.nodesOfAll, Expr.Indexed]
  · simp [Sample.raggedExpr, Expr.nodes, Expr.nodesOfAll, Expr.Numeric]
  · have matrix : ((Expr.unary default .transpose (.var default "m")).check
        Sample.raggedChain).result.ty = .matrix := by
      decide +kernel
    simp [Sample.raggedExpr, Expr.nodes, Expr.nodesOfAll, Expr.IsDot, BinaryOp.plain, matrix]

end MatrixScript
