import MatrixScript.Expr.Typing
import MatrixScript.Proofs.Expr.Nodes
import MatrixScript.Proofs.Signature

/-!
# Accepted expressions

An expression is accepted in a chain of scopes if its check finds nothing to complain
about.  The first part says for every form of expression what follows from that.

The second part is about descriptors.  `Descriptor.Formed` holds of a descriptor that
describes values at all: its shape has the rank of its type, and every dimension in
it is one of a given kind.  An accepted expression in well-formed scopes has
a well-formed descriptor, so it is never `undefined`.
-/

namespace MatrixScript

namespace Expr

/-- The check of the expression finds nothing to complain about. -/
def Accepted (chain : ScopeChain) (expr : Expr) : Prop :=
  (expr.check chain).diagnostics = []

variable {chain : ScopeChain}

theorem checkVariable_clean {name : String} {span : Span}
    (clean : (checkVariable chain name span).diagnostics = []) :
    chain.get? name = some (checkVariable chain name span).result := by
  cases found : chain.get? name with
  | some descriptor => simp [checkVariable, found]
  | none => simp [checkVariable, found] at clean

theorem checkAll_clean {exprs : List Expr} :
    (checkAll chain exprs).diagnostics = [] ↔ ∀ expr ∈ exprs, expr.Accepted chain := by
  induction exprs with
  | nil => simp [checkAll]
  | cons head tail ih => simp [checkAll, Accepted, ih]

theorem rowCheckAll_clean {rows : List Row} :
    (Row.checkAll chain rows).diagnostics = [] ↔
      ∀ row ∈ rows, ∀ cell ∈ row.cells, cell.Accepted chain := by
  induction rows with
  | nil => simp [Row.checkAll]
  | cons head tail ih =>
      cases head with
      | mk span cells => simp [Row.checkAll, checkAll_clean, ih, Row.cells]

/-- The expression is accepted as an integer. -/
def AcceptedInt (chain : ScopeChain) (expr : Expr) : Prop :=
  expr.Accepted chain ∧ (expr.check chain).result.ty = .int

/-- A check that asks for an integer first and goes on only with one. -/
theorem checkInt_clean {head : Expr} {skipped rest : Checked Bool}
    {refused : Descriptor → Checked Bool}
    (defined : head.Accepted chain → (head.check chain).result.isUndefined = false)
    (refuses : ∀ descriptor, (refused descriptor).diagnostics ≠ [])
    (clean : (head.check chain >>= fun descriptor =>
      if descriptor.isUndefined then skipped
      else if descriptor.ty = .int then rest
      else refused descriptor).diagnostics = []) :
    head.AcceptedInt chain ∧ rest.diagnostics = [] ∧
      (head.check chain >>= fun descriptor =>
        if descriptor.isUndefined then skipped
        else if descriptor.ty = .int then rest
        else refused descriptor).result = rest.result := by
  rw [Checked.diagnostics_bind, List.append_eq_nil_iff] at clean
  rcases clean with ⟨headClean, restClean⟩
  rw [Checked.result_bind]
  rw [defined headClean, if_neg Bool.false_ne_true] at restClean ⊢
  by_cases isInt : (head.check chain).result.ty = .int
  · rw [if_pos isInt] at restClean ⊢
    exact ⟨⟨headClean, isInt⟩, restClean, rfl⟩
  · rw [if_neg isInt] at restClean
    exact absurd restClean (refuses _)

theorem checkCoordinates_clean {coordinates : List Expr}
    (defined : ∀ coordinate ∈ coordinates, coordinate.Accepted chain →
      (coordinate.check chain).result.isUndefined = false)
    (clean : (checkCoordinates chain coordinates).diagnostics = []) :
    (checkCoordinates chain coordinates).result = true ∧
      ∀ coordinate ∈ coordinates, coordinate.AcceptedInt chain := by
  induction coordinates with
  | nil => simp [checkCoordinates]
  | cons head tail ih =>
      rw [List.forall_mem_cons] at defined ⊢
      rw [checkCoordinates] at clean ⊢
      rcases checkInt_clean defined.1 (by simp [Checked.complain]) clean with
        ⟨headInt, tailClean, same⟩
      rcases ih defined.2 tailClean with ⟨sound, tailInts⟩
      exact ⟨same.trans sound, headInt, tailInts⟩

theorem checkSizes_clean {arguments : List Expr}
    (defined : ∀ argument ∈ arguments, argument.Accepted chain →
      (argument.check chain).result.isUndefined = false)
    (clean : (checkSizes chain arguments).diagnostics = []) :
    (checkSizes chain arguments).result = true ∧
      ∀ argument ∈ arguments, argument.AcceptedInt chain := by
  induction arguments with
  | nil => simp [checkSizes]
  | cons head tail ih =>
      rw [List.forall_mem_cons] at defined ⊢
      rw [checkSizes] at clean ⊢
      rcases checkInt_clean defined.1 (by simp [Checked.complain]) clean with
        ⟨headInt, tailClean, same⟩
      rcases ih defined.2 tailClean with ⟨sound, tailInts⟩
      exact ⟨same.trans sound, headInt, tailInts⟩

end Expr

/-! ## Well-formed descriptors -/

/-- The shape has the rank of the type, and dimensions of one kind only. -/
inductive Descriptor.Formed (dims : Dim → Prop) : Descriptor → Prop where
  | int (name : String) : Formed dims ⟨.int, [], name⟩
  | float (name : String) : Formed dims ⟨.float, [], name⟩
  | string (name : String) : Formed dims ⟨.string, [], name⟩
  | vector {length : Dim} (name : String) (lengthHas : dims length) :
      Formed dims ⟨.vector, [length], name⟩
  | matrix {rows columns : Dim} (name : String) (rowsHave : dims rows)
      (columnsHave : dims columns) : Formed dims ⟨.matrix, [rows, columns], name⟩

/-- Every name in the scopes has a well-formed descriptor. -/
def ScopeChain.Formed (dims : Dim → Prop) (chain : ScopeChain) : Prop :=
  ∀ name descriptor, chain.get? name = some descriptor → descriptor.Formed dims

/-- No name in the scopes is undefined. -/
def ScopeChain.Defined (chain : ScopeChain) : Prop :=
  ∀ name descriptor, chain.get? name = some descriptor → descriptor.isUndefined = false

namespace Descriptor.Formed

variable {dims : Dim → Prop} {descriptor : Descriptor}

theorem isUndefined_eq (formed : descriptor.Formed dims) :
    descriptor.isUndefined = false := by
  cases formed <;> rfl

theorem named (formed : descriptor.Formed dims) (name : String) :
    (descriptor.named name).Formed dims := by
  cases formed with
  | int => exact .int name
  | float => exact .float name
  | string => exact .string name
  | vector _ lengthHas => exact .vector name lengthHas
  | matrix _ rowsHave columnsHave => exact .matrix name rowsHave columnsHave

theorem of_same {other : Descriptor} (formed : descriptor.Formed dims)
    (sameTy : other.ty = descriptor.ty) (sameShape : other.shape = descriptor.shape) :
    other.Formed dims := by
  rcases other with ⟨ty, shape, name⟩
  simp only at sameTy sameShape
  subst sameTy sameShape
  exact formed.named name

theorem shape_of_isNumeric (formed : descriptor.Formed dims)
    (numeric : descriptor.ty.isNumeric = true) : descriptor.shape = [] := by
  cases formed with
  | int name => rfl
  | float name => rfl
  | string name => rfl
  | vector name lengthHas => cases numeric
  | matrix name rowsHave columnsHave => cases numeric

theorem isAggregate (formed : descriptor.Formed dims) (deep : 0 < descriptor.shape.length) :
    descriptor.ty.isAggregate = true := by
  cases formed with
  | int => cases deep
  | float => cases deep
  | string => cases deep
  | vector => rfl
  | matrix => rfl

end Descriptor.Formed

theorem ScopeChain.Formed.defined {dims : Dim → Prop} {chain : ScopeChain}
    (formed : chain.Formed dims) : chain.Defined := by
  intro name descriptor found
  exact (formed name descriptor found).isUndefined_eq

theorem Dim.orElse_has {dims : Dim → Prop} {first second : Dim} (firstHas : dims first)
    (secondHas : dims second) : dims (first.orElse second) := by
  cases first with
  | known size => exact firstHas
  | unbounded => exact secondHas

namespace Signature

/-- The ways in which an operator combines two descriptors into a third. -/
inductive Combination : BinaryOp → Descriptor → Descriptor → Descriptor → Prop where
  | integers {arith : Arith} {left right : Descriptor} (whole : arith ≠ .div)
      (leftInt : left.ty = .int) (rightInt : right.ty = .int) :
      Combination (.plain arith) left right (.scalar .int)
  | numbers {arith : Arith} {left right : Descriptor}
      (leftNumeric : left.ty.isNumeric = true) (rightNumeric : right.ty.isNumeric = true) :
      Combination (.plain arith) left right (.scalar .float)
  | texts {left right : Descriptor} (leftString : left.ty = .string)
      (rightString : right.ty = .string) :
      Combination (.plain .add) left right (.scalar .string)
  | vectorPlaces {op : BinaryOp} {first second : Dim} {name other : String}
      (byPlace : op.dotted = true ∨ op.arith = .add ∨ op.arith = .sub)
      (fit : first.compatible second = true) :
      Combination op ⟨.vector, [first], name⟩ ⟨.vector, [second], other⟩
        (.vector (first.orElse second))
  | matrixPlaces {op : BinaryOp} {rows columns height width : Dim} {name other : String}
      (byPlace : op.dotted = true ∨ op.arith = .add ∨ op.arith = .sub)
      (rowsFit : rows.compatible height = true)
      (columnsFit : columns.compatible width = true) :
      Combination op ⟨.matrix, [rows, columns], name⟩ ⟨.matrix, [height, width], other⟩
        (.matrix (rows.orElse height) (columns.orElse width))
  | dot {first second : Dim} {name other : String} (fit : first.compatible second = true) :
      Combination (.plain .mul) ⟨.vector, [first], name⟩ ⟨.vector, [second], other⟩
        (.scalar .float)
  | product {rows inner height columns : Dim} {name other : String}
      (fit : inner.compatible height = true) :
      Combination (.plain .mul) ⟨.matrix, [rows, inner], name⟩
        ⟨.matrix, [height, columns], other⟩ (.matrix rows columns)
  | arrayByNumber {arith : Arith} {left right : Descriptor}
      (scales : arith = .mul ∨ arith = .div) (aggregate : left.ty.isAggregate = true)
      (numeric : right.ty.isNumeric = true) :
      Combination (.plain arith) left right (.of left.ty left.shape)
  | numberByArray {left right : Descriptor} (numeric : left.ty.isNumeric = true)
      (aggregate : right.ty.isAggregate = true) :
      Combination (.plain .mul) left right (.of right.ty right.shape)

variable {dims : Dim → Prop} {op : BinaryOp} {left right : Descriptor} {ty : Ty}
  {shape : Shape}

/-- An accepted operation on well-formed descriptors is a combination of them. -/
theorem Combination.of_rule (rule : Rule op left.ty right.ty ty)
    (leftFormed : left.Formed dims) (rightFormed : right.Formed dims)
    (shaped : shape? op left right = some shape) :
    Combination op left right (.of ty shape) := by
  generalize leftTy : left.ty = first at rule
  generalize rightTy : right.ty = second at rule
  cases rule with
  | integers whole =>
      have scalarShape : shape = [] := by
        simpa [shape?, leftTy, rightTy, Ty.isAggregate, eq_comm] using shaped
      subst scalarShape
      exact .integers whole leftTy rightTy
  | numbers leftNumeric rightNumeric =>
      subst leftTy rightTy
      have scalarShape : shape = [] := by
        rcases Ty.isNumeric_iff.mp leftNumeric with leftTy | leftTy <;>
          rcases Ty.isNumeric_iff.mp rightNumeric with rightTy | rightTy <;>
          simpa [shape?, leftTy, rightTy, Ty.isAggregate, eq_comm] using shaped
      subst scalarShape
      exact .numbers leftNumeric rightNumeric
  | texts =>
      have scalarShape : shape = [] := by
        simpa [shape?, leftTy, rightTy, Ty.isAggregate, eq_comm] using shaped
      subst scalarShape
      exact .texts leftTy rightTy
  | places aggregate byPlace =>
      have notProduct : op ≠ .plain .mul := by
        rintro rfl
        simp [BinaryOp.plain] at byPlace
      rcases Ty.isAggregate_iff.mp aggregate with rfl | rfl
      · cases leftFormed <;> cases leftTy
        cases rightFormed <;> cases rightTy
        simp only [shape?, Ty.isAggregate, arrayShape?, notProduct, if_false,
          Option.ite_none_right_eq_some, Option.some.injEq] at shaped
        rcases shaped with ⟨fit, rfl⟩
        exact .vectorPlaces byPlace (by simpa [Shape.compatible] using fit)
      · cases leftFormed <;> cases leftTy
        cases rightFormed <;> cases rightTy
        simp only [shape?, Ty.isAggregate, arrayShape?, notProduct, if_false,
          Option.ite_none_right_eq_some, Option.some.injEq] at shaped
        rcases shaped with ⟨fit, rfl⟩
        have fits := by simpa [Shape.compatible] using fit
        exact .matrixPlaces byPlace fits.1 fits.2
  | vectors =>
      cases leftFormed <;> cases leftTy
      cases rightFormed <;> cases rightTy
      simp only [shape?, Ty.isAggregate, arrayShape?, if_true, productShape?,
        Option.ite_none_right_eq_some, Option.some.injEq] at shaped
      rcases shaped with ⟨fit, rfl⟩
      exact .dot fit
  | matrices =>
      cases leftFormed <;> cases leftTy
      cases rightFormed <;> cases rightTy
      simp only [shape?, Ty.isAggregate, arrayShape?, if_true, productShape?,
        Option.ite_none_right_eq_some, Option.some.injEq] at shaped
      rcases shaped with ⟨fit, rfl⟩
      exact .product fit
  | arrayByNumber scales aggregate numeric =>
      subst leftTy rightTy
      have arrayShape : shape = left.shape := by
        rcases Ty.isAggregate_iff.mp aggregate with leftTy | leftTy <;>
          rcases Ty.isNumeric_iff.mp numeric with rightTy | rightTy <;>
          simpa [shape?, leftTy, rightTy, Ty.isAggregate, eq_comm] using shaped
      subst arrayShape
      exact .arrayByNumber scales aggregate numeric
  | numberByArray aggregate numeric =>
      subst leftTy rightTy
      have arrayShape : shape = right.shape := by
        rcases Ty.isAggregate_iff.mp aggregate with rightTy | rightTy <;>
          rcases Ty.isNumeric_iff.mp numeric with leftTy | leftTy <;>
          simpa [shape?, leftTy, rightTy, Ty.isAggregate, eq_comm] using shaped
      subst arrayShape
      exact .numberByArray numeric aggregate

theorem Combination.of_clean {span : Span} (leftFormed : left.Formed dims)
    (rightFormed : right.Formed dims)
    (clean : (Expr.checkBinary span op left right).diagnostics = []) :
    Combination op left right (Expr.checkBinary span op left right).result := by
  simp only [Expr.checkBinary, leftFormed.isUndefined_eq, rightFormed.isUndefined_eq,
    Bool.or_self, Bool.false_eq_true, if_false] at clean ⊢
  split at clean
  · simp [Checked.refuse] at clean
  · rename_i ty accepted
    split at clean
    · simp [Checked.refuse] at clean
    · rename_i shape shaped
      simp only [Checked.result_pure]
      exact .of_rule (.of_binary accepted) leftFormed rightFormed shaped

theorem Combination.formed {result : Descriptor} (combination : Combination op left right result)
    (leftFormed : left.Formed dims) (rightFormed : right.Formed dims) :
    result.Formed dims := by
  cases combination with
  | integers => exact .int ""
  | numbers => exact .float ""
  | texts => exact .string ""
  | vectorPlaces byPlace fit =>
      cases leftFormed with
      | vector _ firstHas =>
          cases rightFormed with
          | vector _ secondHas => exact .vector "" (Dim.orElse_has firstHas secondHas)
  | matrixPlaces byPlace rowsFit columnsFit =>
      cases leftFormed with
      | matrix _ rowsHave columnsHave =>
          cases rightFormed with
          | matrix _ heightHas widthHas =>
              exact .matrix "" (Dim.orElse_has rowsHave heightHas)
                (Dim.orElse_has columnsHave widthHas)
  | dot => exact .float ""
  | product fit =>
      cases leftFormed with
      | matrix _ rowsHave innerHas =>
          cases rightFormed with
          | matrix _ heightHas columnsHave => exact .matrix "" rowsHave columnsHave
  | arrayByNumber => exact leftFormed.of_same rfl rfl
  | numberByArray => exact rightFormed.of_same rfl rfl

end Signature

namespace Expr

/-- The sizes that literals and constructors state here are dimensions of one kind. -/
def SizesIn (dims : Dim → Prop) : Expr → Prop
  | .vector _ elements => dims (.known elements.length)
  | .matrix _ rows =>
      dims (.known rows.length) ∧ ∀ row ∈ rows, dims (.known row.cells.length)
  | .call _ _ arguments => ∀ argument ∈ arguments, dims (sizeOfArgument argument)
  | _ => True

variable {dims : Dim → Prop} {chain : ScopeChain}

theorem selected_formed {container : Descriptor} (formed : container.Formed dims)
    {count : Nat} (few : count ≤ container.shape.length) :
    (selected container.shape count).Formed dims := by
  unfold selected
  split
  · exact .float ""
  · rename_i partly
    cases formed with
    | int => exact absurd (Nat.le_zero.mp few) partly
    | float => exact absurd (Nat.le_zero.mp few) partly
    | string => exact absurd (Nat.le_zero.mp few) partly
    | vector _ lengthHas => exact .vector "" lengthHas
    | matrix _ rowsHave columnsHave => exact .vector "" columnsHave

theorem outOfBounds_cons {coordinate : Expr} {coordinates : List Expr} {size : Dim}
    {shape : Shape} (inside : outOfBounds (coordinate :: coordinates) (size :: shape) = []) :
    (∀ index, coordinate.literal? = some index → size.excludes index = false) ∧
      outOfBounds coordinates shape = [] := by
  cases coordinate with
  | int span index =>
      simp only [outOfBounds] at inside
      split at inside
      · simp at inside
      · rename_i admitted
        refine ⟨?_, inside⟩
        rintro _ ⟨⟩
        simpa using admitted
  | _ => exact ⟨by simp [literal?], by simpa [outOfBounds] using inside⟩

theorem checkSelection_clean {shape : Shape} {coordinates : List Expr}
    (clean : (checkSelection shape coordinates).diagnostics = []) :
    outOfBounds coordinates shape = [] ∧
      (checkSelection shape coordinates).result = selected shape coordinates.length := by
  unfold checkSelection at clean ⊢
  split at clean
  · rename_i inside
    exact ⟨inside, by simp⟩
  · rename_i outside
    exact absurd clean outside

theorem checkConstructor_formed {span : Span} {builtin : Builtin} {arguments : List Expr}
    (sizes : ∀ argument ∈ arguments, dims (sizeOfArgument argument))
    (clean : (checkConstructor span builtin arguments).diagnostics = []) :
    (checkConstructor span builtin arguments).result.Formed dims := by
  match arguments with
  | [] => simp [checkConstructor, Checked.refuse] at clean
  | [size] =>
      have sizeHas := sizes size (by simp)
      exact .matrix "" sizeHas sizeHas
  | [rows, columns] =>
      exact .matrix "" (sizes rows (by simp)) (sizes columns (by simp))
  | _ :: _ :: _ :: _ => simp [checkConstructor, Checked.refuse] at clean

theorem checkComparison_clean {span : Span} {op : Comparison} {left right : Descriptor}
    (leftFormed : left.Formed dims) (rightFormed : right.Formed dims)
    (clean : (checkComparison span op left right).diagnostics = []) :
    (checkComparison span op left right).result = .scalar .int ∧
      ((left.ty = .string ∧ right.ty = .string) ∨
        (left.ty.isNumeric = true ∧ right.ty.isNumeric = true)) := by
  simp only [checkComparison, leftFormed.isUndefined_eq, rightFormed.isUndefined_eq,
    Bool.or_self, Bool.false_eq_true, if_false] at clean ⊢
  split at clean
  · simp [Checked.refuse] at clean
  · rename_i ty accepted
    rcases Signature.comparison_eq_some accepted with ⟨rfl, operands⟩
    exact ⟨rfl, operands⟩

/-- A minus sign stands before a number, and a quote behind a matrix. -/
theorem checkUnary_clean {span : Span} {op : UnaryOp} {operand : Descriptor}
    (formed : operand.Formed dims)
    (clean : (checkUnary span op operand).diagnostics = []) :
    (op = .negate ∧ operand.ty.isNumeric = true ∧
        (checkUnary span op operand).result = .scalar operand.ty) ∨
      (op = .transpose ∧ ∃ rows columns name, operand = ⟨.matrix, [rows, columns], name⟩ ∧
        (checkUnary span op operand).result = .matrix columns rows) := by
  simp only [checkUnary, formed.isUndefined_eq, Bool.false_eq_true, if_false] at clean ⊢
  split at clean
  · simp [Checked.refuse] at clean
  · rename_i ty accepted
    rcases Signature.unary_eq_some accepted with ⟨rfl, numeric, rfl⟩ | ⟨rfl, matrix, rfl⟩
    · left
      refine ⟨rfl, numeric, ?_⟩
      rw [formed.shape_of_isNumeric numeric]
      rfl
    · right
      cases formed <;> cases matrix
      exact ⟨rfl, _, _, _, rfl, rfl⟩

/-- A literal matrix is accepted with rows of one length. -/
theorem checkRows_clean {span : Span} {rows : List Row}
    (clean : (checkRows span rows).diagnostics = []) :
    ∃ width, (∀ row ∈ rows, row.cells.length = width) ∧ (rows = [] → width = 0) ∧
      (checkRows span rows).result = .matrix (.known rows.length) (.known width) := by
  simp only [checkRows] at clean ⊢
  split at clean
  · rename_i even
    refine ⟨(rows.head?.map fun row => row.cells.length).getD 0, ?_, ?_, ?_⟩
    · simpa using even
    · rintro rfl
      rfl
    · rw [if_pos even]
      rfl
  · simp [Checked.refuse] at clean

theorem reference_clean {span : Span} {name : Located String} {coordinates : List Expr}
    (chainDefined : chain.Defined)
    (defined : ∀ coordinate ∈ coordinates, coordinate.Accepted chain →
      (coordinate.check chain).result.isUndefined = false)
    (accepted : (Expr.reference span name coordinates).Accepted chain) :
    ∃ container, chain.get? name.item = some container ∧
      coordinates.length ≤ container.shape.length ∧
      (∀ coordinate ∈ coordinates, coordinate.AcceptedInt chain) ∧
      outOfBounds coordinates container.shape = [] ∧
      ((Expr.reference span name coordinates).check chain).result =
        selected container.shape coordinates.length := by
  simp only [Accepted, check, Checked.diagnostics_bind, Checked.result_bind,
    List.append_eq_nil_iff] at accepted ⊢
  rcases accepted with ⟨nameClean, restClean⟩
  have found := checkVariable_clean nameClean
  have containerDefined := chainDefined _ _ found
  refine ⟨_, found, ?_⟩
  simp only [containerDefined, Bool.false_eq_true, if_false] at restClean ⊢
  split at restClean
  · simp [Checked.refuse] at restClean
  · rename_i few
    simp only [Checked.diagnostics_bind, List.append_eq_nil_iff] at restClean
    rcases restClean with ⟨coordinatesClean, selectionClean⟩
    rcases checkCoordinates_clean defined coordinatesClean with ⟨sound, ints⟩
    simp only [sound, if_true] at selectionClean
    rcases checkSelection_clean selectionClean with ⟨inside, result⟩
    refine ⟨by omega, ints, inside, ?_⟩
    simp [few, sound, result]

theorem call_clean {span : Span} {builtin : Builtin} {arguments : List Expr}
    (defined : ∀ argument ∈ arguments, argument.Accepted chain →
      (argument.check chain).result.isUndefined = false)
    (accepted : (Expr.call span builtin arguments).Accepted chain) :
    (∀ argument ∈ arguments, argument.AcceptedInt chain) ∧
      (checkConstructor span builtin arguments).diagnostics = [] ∧
      ((Expr.call span builtin arguments).check chain).result =
        (checkConstructor span builtin arguments).result := by
  simp only [Accepted, check, Checked.diagnostics_bind, Checked.result_bind,
    List.append_eq_nil_iff] at accepted ⊢
  rcases accepted with ⟨sizesClean, restClean⟩
  rcases checkSizes_clean defined sizesClean with ⟨sound, ints⟩
  simp only [sound, if_true] at restClean
  exact ⟨ints, restClean, by simp [sound]⟩

/-- An accepted expression in well-formed scopes has a well-formed descriptor. -/
theorem check_formed (chainFormed : chain.Formed dims) (expr : Expr)
    (sizes : ∀ node ∈ expr.nodes, node.SizesIn dims) (accepted : expr.Accepted chain) :
    (expr.check chain).result.Formed dims := by
  induction expr with
  | int span value => exact .int ""
  | float span value => exact .float ""
  | string span value => exact .string ""
  | var span name => exact chainFormed _ _ (checkVariable_clean accepted)
  | vector span elements ih => exact .vector "" (sizes _ (self_mem_nodes _))
  | matrix span rows ih =>
      rcases sizes _ (self_mem_nodes _) with ⟨heightHas, widthsHave⟩
      simp only [Accepted, check, Checked.diagnostics_bind, List.append_eq_nil_iff] at accepted
      rcases checkRows_clean accepted.2 with ⟨width, even, noRows, result⟩
      simp only [check, Checked.result_bind, result]
      refine .matrix "" heightHas ?_
      cases rows with
      | nil =>
          rw [noRows rfl]
          exact heightHas
      | cons first rest =>
          rw [← even first List.mem_cons_self]
          exact widthsHave first List.mem_cons_self
  | reference span name coordinates ih =>
      have defined : ∀ coordinate ∈ coordinates, coordinate.Accepted chain →
          (coordinate.check chain).result.isUndefined = false := by
        intro coordinate member coordinateAccepted
        refine (ih coordinate member (fun node inside => sizes node ?_)
          coordinateAccepted).isUndefined_eq
        exact List.mem_cons_of_mem _ (nodes_subset_nodesOfAll member inside)
      rcases reference_clean chainFormed.defined defined accepted with
        ⟨container, found, few, _, _, result⟩
      rw [result]
      exact selected_formed (chainFormed _ _ found) few
  | call span builtin arguments ih =>
      have defined : ∀ argument ∈ arguments, argument.Accepted chain →
          (argument.check chain).result.isUndefined = false := by
        intro argument member argumentAccepted
        refine (ih argument member (fun node inside => sizes node ?_)
          argumentAccepted).isUndefined_eq
        exact List.mem_cons_of_mem _ (nodes_subset_nodesOfAll member inside)
      rcases call_clean defined accepted with ⟨_, constructorClean, result⟩
      rw [result]
      exact checkConstructor_formed (sizes _ (self_mem_nodes _)) constructorClean
  | binary span left op right leftIH rightIH =>
      simp only [Accepted, check, Checked.diagnostics_bind, List.append_eq_nil_iff] at accepted
      have leftFormed := leftIH
        (fun node inside => sizes node (by simp [nodes, inside])) accepted.1
      have rightFormed := rightIH
        (fun node inside => sizes node (by simp [nodes, inside])) accepted.2.1
      exact (Signature.Combination.of_clean leftFormed rightFormed accepted.2.2).formed
        leftFormed rightFormed
  | compare span left op right leftIH rightIH =>
      simp only [Accepted, check, Checked.diagnostics_bind, List.append_eq_nil_iff] at accepted
      have leftFormed := leftIH
        (fun node inside => sizes node (by simp [nodes, inside])) accepted.1
      have rightFormed := rightIH
        (fun node inside => sizes node (by simp [nodes, inside])) accepted.2.1
      simp only [check, Checked.result_bind,
        (checkComparison_clean leftFormed rightFormed accepted.2.2).1]
      exact .int ""
  | unary span op operand ih =>
      simp only [Accepted, check, Checked.diagnostics_bind, List.append_eq_nil_iff] at accepted
      have formed := ih (fun node inside => sizes node (by simp [nodes, inside])) accepted.1
      simp only [check, Checked.result_bind]
      rcases checkUnary_clean formed accepted.2 with
        ⟨_, numeric, result⟩ | ⟨_, rows, columns, name, operandIs, result⟩
      · rw [result]
        exact formed.of_same rfl (formed.shape_of_isNumeric numeric).symm
      · rw [result]
        rw [operandIs] at formed
        cases formed with
        | matrix _ rowsHave columnsHave => exact .matrix "" columnsHave rowsHave

/-- Whatever its sizes, an accepted expression has a descriptor that is not `undefined`. -/
theorem check_proper {expr : Expr} (chainProper : chain.Formed fun _ => True)
    (accepted : expr.Accepted chain) : (expr.check chain).result.Formed fun _ => True := by
  refine check_formed chainProper expr ?_ accepted
  intro node _
  cases node with
  | matrix span rows => exact ⟨trivial, fun _ _ => trivial⟩
  | call span builtin arguments => exact fun _ _ => trivial
  | _ => trivial

end Expr

end MatrixScript
