import MatrixScript.Proofs.Expr.Soundness

/-!
# Complaints about sizes are genuine

The check of an expression complains about sizes in two places: where an operator meets
arrays that do not fit, and where a literal index lies outside its dimension.  Read
exactly, descriptors leave no doubt, so what is complained about also fails when it is
evaluated, and with it the expression around it.

A complaint is made about operands only if they are not `undefined`.  In an expression whose
literals hold numbers these are the operands without any complaint of their own, and the
statement on accepted expressions says what they evaluate to.
-/

namespace MatrixScript

/-- The complaint is that arrays do not fit, or that an index is out of bounds. -/
def Complaint.AboutSizes : Complaint → Prop
  | .shapeMismatch _ _ | .outOfBounds _ _ => True
  | _ => False

/-- Some of the diagnostics are about sizes. -/
def AboutSizes (diagnostics : List Diagnostic) : Prop :=
  ∃ diagnostic ∈ diagnostics, diagnostic.complaint.AboutSizes

namespace AboutSizes

@[simp]
theorem nil_iff : AboutSizes [] ↔ False := by
  simp [AboutSizes]

@[simp]
theorem cons_iff {diagnostic : Diagnostic} {others : List Diagnostic} :
    AboutSizes (diagnostic :: others) ↔
      diagnostic.complaint.AboutSizes ∨ AboutSizes others := by
  simp [AboutSizes]

@[simp]
theorem append_iff {front back : List Diagnostic} :
    AboutSizes (front ++ back) ↔ AboutSizes front ∨ AboutSizes back := by
  simp only [AboutSizes, List.mem_append, or_and_right, exists_or]

end AboutSizes

/-! ## Defined means accepted -/

namespace Expr

variable {chain : ScopeChain}

/-- The check of the expression finds out what it is. -/
def Defined (chain : ScopeChain) (expr : Expr) : Prop :=
  (expr.check chain).result.isUndefined = false

theorem defined_of_ty {expr : Expr} {ty : Ty} (known : (expr.check chain).result.ty = ty)
    (proper : ty ≠ .undefined) : expr.Defined chain := by
  rw [Defined, Descriptor.isUndefined, known]
  simpa using proper

theorem defined_of_isNumeric {expr : Expr}
    (numeric : (expr.check chain).result.ty.isNumeric = true) : expr.Defined chain := by
  apply defined_of_ty rfl
  intro undefined
  rw [undefined] at numeric
  cases numeric

/-- A check that asks for an integer first and has succeeded has found one. -/
theorem checkInt_sound {head : Expr} {skipped rest : Checked Bool}
    {refused : Descriptor → Checked Bool} (skips : skipped.result = false)
    (refuses : ∀ descriptor, (refused descriptor).result = false)
    (sound : (head.check chain >>= fun descriptor =>
      if descriptor.isUndefined then skipped
      else if descriptor.ty = .int then rest
      else refused descriptor).result = true) :
    (head.check chain).result.ty = .int ∧ rest.result = true ∧
      (head.check chain >>= fun descriptor =>
        if descriptor.isUndefined then skipped
        else if descriptor.ty = .int then rest
        else refused descriptor).diagnostics =
          (head.check chain).diagnostics ++ rest.diagnostics := by
  rw [Checked.result_bind] at sound
  rw [Checked.diagnostics_bind]
  split at sound
  · rw [skips] at sound
    cases sound
  · rename_i notUndefined
    split at sound
    · rename_i isInt
      rw [if_neg notUndefined, if_pos isInt]
      exact ⟨isInt, sound, rfl⟩
    · rw [refuses] at sound
      cases sound

theorem checkCoordinates_sound {coordinates : List Expr}
    (each : ∀ coordinate ∈ coordinates, coordinate.Defined chain → coordinate.Accepted chain)
    (sound : (checkCoordinates chain coordinates).result = true) :
    (checkCoordinates chain coordinates).diagnostics = [] ∧
      ∀ coordinate ∈ coordinates, coordinate.AcceptedInt chain := by
  induction coordinates with
  | nil => simp [checkCoordinates]
  | cons head tail ih =>
      rw [List.forall_mem_cons] at each ⊢
      rw [checkCoordinates] at sound ⊢
      rcases checkInt_sound rfl (fun _ => rfl) sound with ⟨isInt, tailSound, diagnostics⟩
      rcases ih each.2 tailSound with ⟨tailClean, tailInts⟩
      have headAccepted := each.1 (defined_of_ty isInt (by decide))
      refine ⟨?_, ⟨headAccepted, isInt⟩, tailInts⟩
      rw [diagnostics, headAccepted, tailClean, List.append_nil]

theorem checkSizes_sound {arguments : List Expr}
    (each : ∀ argument ∈ arguments, argument.Defined chain → argument.Accepted chain)
    (sound : (checkSizes chain arguments).result = true) :
    (checkSizes chain arguments).diagnostics = [] ∧
      ∀ argument ∈ arguments, argument.AcceptedInt chain := by
  induction arguments with
  | nil => simp [checkSizes]
  | cons head tail ih =>
      rw [List.forall_mem_cons] at each ⊢
      rw [checkSizes] at sound ⊢
      rcases checkInt_sound rfl (fun _ => rfl) sound with ⟨isInt, tailSound, diagnostics⟩
      rcases ih each.2 tailSound with ⟨tailClean, tailInts⟩
      have headAccepted := each.1 (defined_of_ty isInt (by decide))
      refine ⟨?_, ⟨headAccepted, isInt⟩, tailInts⟩
      rw [diagnostics, headAccepted, tailClean, List.append_nil]

/-- A check of operands that refuses them leaves nothing defined. -/
theorem checkBinary_defined {span : Span} {op : BinaryOp} {left right : Descriptor}
    (defined : (checkBinary span op left right).result.isUndefined = false) :
    left.isUndefined = false ∧ right.isUndefined = false ∧
      (checkBinary span op left right).diagnostics = [] := by
  unfold checkBinary at defined ⊢
  split at defined
  · cases defined
  · rename_i bothDefined
    rw [if_neg bothDefined]
    rw [Bool.or_eq_true, not_or, Bool.not_eq_true, Bool.not_eq_true] at bothDefined
    refine ⟨bothDefined.1, bothDefined.2, ?_⟩
    split at defined
    · cases defined
    · split at defined
      · cases defined
      · rfl

theorem checkComparison_defined {span : Span} {op : Comparison} {left right : Descriptor}
    (defined : (checkComparison span op left right).result.isUndefined = false) :
    left.isUndefined = false ∧ right.isUndefined = false ∧
      (checkComparison span op left right).diagnostics = [] := by
  unfold checkComparison at defined ⊢
  split at defined
  · cases defined
  · rename_i bothDefined
    rw [if_neg bothDefined]
    rw [Bool.or_eq_true, not_or, Bool.not_eq_true, Bool.not_eq_true] at bothDefined
    refine ⟨bothDefined.1, bothDefined.2, ?_⟩
    split at defined
    · cases defined
    · rfl

theorem checkUnary_defined {span : Span} {op : UnaryOp} {operand : Descriptor}
    (defined : (checkUnary span op operand).result.isUndefined = false) :
    operand.isUndefined = false ∧ (checkUnary span op operand).diagnostics = [] := by
  unfold checkUnary at defined ⊢
  split at defined
  · rename_i undefined
    rw [Checked.result_pure, undefined] at defined
    cases defined
  · rename_i operandDefined
    rw [if_neg operandDefined]
    refine ⟨Bool.not_eq_true _ ▸ operandDefined, ?_⟩
    split at defined
    · cases defined
    · cases op <;> rfl

theorem checkVariable_defined {name : String} {span : Span}
    (defined : (checkVariable chain name span).result.isUndefined = false) :
    (checkVariable chain name span).diagnostics = [] := by
  unfold checkVariable at defined ⊢
  split at defined
  · rfl
  · cases defined

theorem checkSelection_defined {shape : Shape} {coordinates : List Expr}
    (defined : (checkSelection shape coordinates).result.isUndefined = false) :
    (checkSelection shape coordinates).diagnostics = [] := by
  unfold checkSelection at defined ⊢
  split at defined
  · rfl
  · cases defined

theorem reference_defined {span : Span} {name : Located String} {coordinates : List Expr}
    (each : ∀ coordinate ∈ coordinates, coordinate.Defined chain → coordinate.Accepted chain)
    (defined : (Expr.reference span name coordinates).Defined chain) :
    (Expr.reference span name coordinates).Accepted chain := by
  simp only [Defined, Accepted, check, Checked.result_bind, Checked.diagnostics_bind]
    at defined ⊢
  split at defined
  · cases defined
  · rename_i container
    rw [if_neg container]
    split at defined
    · cases defined
    · rename_i few
      rw [if_neg few]
      simp only [Checked.result_bind, Checked.diagnostics_bind] at defined ⊢
      split at defined
      · rename_i sound
        rcases checkCoordinates_sound each sound with ⟨coordinatesClean, _⟩
        rw [checkVariable_defined (Bool.not_eq_true _ ▸ container), coordinatesClean,
          if_pos sound, checkSelection_defined defined]
        rfl
      · cases defined

theorem call_defined {span : Span} {builtin : Builtin} {arguments : List Expr}
    (each : ∀ argument ∈ arguments, argument.Defined chain → argument.Accepted chain)
    (defined : (Expr.call span builtin arguments).Defined chain) :
    (Expr.call span builtin arguments).Accepted chain := by
  simp only [Defined, Accepted, check, Checked.result_bind, Checked.diagnostics_bind]
    at defined ⊢
  split at defined
  · rename_i sound
    rw [(checkSizes_sound each sound).1, if_pos sound]
    unfold checkConstructor at defined ⊢
    split at defined
    · rfl
    · rfl
    · cases defined
  · cases defined

/-- Only a literal can be defined in spite of a complaint, and not if it holds numbers. -/
theorem accepted_of_defined (expr : Expr) (numeric : ∀ node ∈ expr.nodes, node.Numeric chain)
    (defined : expr.Defined chain) : expr.Accepted chain := by
  induction expr with
  | int span value => rfl
  | float span value => rfl
  | string span value => rfl
  | var span name =>
      rw [Defined, check] at defined
      rw [Accepted, check, checkVariable_defined defined]
  | vector span elements ih =>
      rcases List.forall_mem_cons.mp numeric with ⟨here, inside⟩
      simp only [Accepted, check, Checked.diagnostics_bind, Checked.diagnostics_pure,
        List.append_nil, checkAll_clean]
      intro element member
      exact ih element member
        (fun node found => inside node (nodes_subset_nodesOfAll member found))
        (defined_of_isNumeric (here element member))
  | matrix span rows ih =>
      rcases List.forall_mem_cons.mp numeric with ⟨here, inside⟩
      simp only [Accepted, check, Checked.diagnostics_bind, List.append_eq_nil_iff,
        rowCheckAll_clean]
      constructor
      · intro row inRows cell inRow
        exact ih row inRows cell inRow
          (fun node found => inside node (nodes_subset_rowNodes inRows inRow found))
          (defined_of_isNumeric (here row inRows cell inRow))
      · simp only [Defined, check, Checked.result_bind, checkRows] at defined ⊢
        split at defined
        · rename_i even
          rw [if_pos even]
          rfl
        · cases defined
  | reference span name coordinates ih =>
      apply reference_defined ?_ defined
      intro coordinate member
      exact ih coordinate member fun node found =>
        numeric node (List.mem_cons_of_mem _ (nodes_subset_nodesOfAll member found))
  | call span builtin arguments ih =>
      apply call_defined ?_ defined
      intro argument member
      exact ih argument member fun node found =>
        numeric node (List.mem_cons_of_mem _ (nodes_subset_nodesOfAll member found))
  | binary span left op right leftIH rightIH =>
      simp only [Defined, check, Checked.result_bind] at defined
      rcases checkBinary_defined defined with ⟨leftDefined, rightDefined, clean⟩
      simp only [Accepted, check, Checked.diagnostics_bind, List.append_eq_nil_iff]
      exact ⟨leftIH (fun node found => numeric node (by simp [nodes, found])) leftDefined,
        rightIH (fun node found => numeric node (by simp [nodes, found])) rightDefined, clean⟩
  | compare span left op right leftIH rightIH =>
      simp only [Defined, check, Checked.result_bind] at defined
      rcases checkComparison_defined defined with ⟨leftDefined, rightDefined, clean⟩
      simp only [Accepted, check, Checked.diagnostics_bind, List.append_eq_nil_iff]
      exact ⟨leftIH (fun node found => numeric node (by simp [nodes, found])) leftDefined,
        rightIH (fun node found => numeric node (by simp [nodes, found])) rightDefined, clean⟩
  | unary span op operand ih =>
      simp only [Defined, check, Checked.result_bind] at defined
      rcases checkUnary_defined defined with ⟨operandDefined, clean⟩
      simp only [Accepted, check, Checked.diagnostics_bind, List.append_eq_nil_iff]
      exact ⟨ih (fun node found => numeric node (by simp [nodes, found])) operandDefined, clean⟩

end Expr

/-! ## Operands that do not fit -/

theorem Ty.isAggregate_of_isNumeric {ty : Ty} (numeric : ty.isNumeric = true) :
    ty.isAggregate = false := by
  rcases Ty.isNumeric_iff.mp numeric with rfl | rfl
  · rfl
  · rfl

namespace Signature

/-- The ways in which an operator accepts the types of two arrays and not their sizes. -/
inductive Clash : BinaryOp → Descriptor → Descriptor → Prop where
  | vectorPlaces {op : BinaryOp} {first second : Dim} {name other : String}
      (byPlace : op.dotted = true ∨ op.arith = .add ∨ op.arith = .sub)
      (unfit : first.compatible second = false) :
      Clash op ⟨.vector, [first], name⟩ ⟨.vector, [second], other⟩
  | matrixPlaces {op : BinaryOp} {rows columns height width : Dim} {name other : String}
      (byPlace : op.dotted = true ∨ op.arith = .add ∨ op.arith = .sub)
      (unfit : rows.compatible height = false ∨ columns.compatible width = false) :
      Clash op ⟨.matrix, [rows, columns], name⟩ ⟨.matrix, [height, width], other⟩
  | dot {first second : Dim} {name other : String} (unfit : first.compatible second = false) :
      Clash (.plain .mul) ⟨.vector, [first], name⟩ ⟨.vector, [second], other⟩
  | product {rows inner height columns : Dim} {name other : String}
      (unfit : inner.compatible height = false) :
      Clash (.plain .mul) ⟨.matrix, [rows, inner], name⟩ ⟨.matrix, [height, columns], other⟩

variable {dims : Dim → Prop} {op : BinaryOp} {left right : Descriptor} {ty : Ty}

/-- A single value goes with operands of all shapes. -/
theorem shape?_ne_none
    (single : left.ty.isAggregate = false ∨ right.ty.isAggregate = false) :
    shape? op left right ≠ none := by
  unfold shape?
  rcases single with single | single
  · rw [single]
    cases aggregate : right.ty.isAggregate <;> simp
  · rw [single]
    cases aggregate : left.ty.isAggregate <;> simp

/-- Operands of accepted types that have no shape together are arrays that do not fit. -/
theorem Clash.of_rule (rule : Rule op left.ty right.ty ty) (leftFormed : left.Formed dims)
    (rightFormed : right.Formed dims) (unshaped : shape? op left right = none) :
    Clash op left right := by
  generalize leftTy : left.ty = first at rule
  generalize rightTy : right.ty = second at rule
  cases rule with
  | integers whole =>
      exact absurd unshaped (shape?_ne_none (.inl (by rw [leftTy]; rfl)))
  | numbers leftNumeric rightNumeric =>
      subst leftTy
      exact absurd unshaped (shape?_ne_none (.inl (Ty.isAggregate_of_isNumeric leftNumeric)))
  | texts =>
      exact absurd unshaped (shape?_ne_none (.inl (by rw [leftTy]; rfl)))
  | places aggregate byPlace =>
      have notProduct : op ≠ .plain .mul := by
        rintro rfl
        simp [BinaryOp.plain] at byPlace
      rcases Ty.isAggregate_iff.mp aggregate with rfl | rfl
      · cases leftFormed <;> cases leftTy
        cases rightFormed <;> cases rightTy
        simp [shape?, Ty.isAggregate, arrayShape?, notProduct, Shape.compatible] at unshaped
        exact .vectorPlaces byPlace unshaped
      · cases leftFormed <;> cases leftTy
        cases rightFormed <;> cases rightTy
        simp [shape?, Ty.isAggregate, arrayShape?, notProduct, Shape.compatible] at unshaped
        exact .matrixPlaces byPlace (by grind)
  | vectors =>
      cases leftFormed <;> cases leftTy
      cases rightFormed <;> cases rightTy
      simp [shape?, Ty.isAggregate, arrayShape?, productShape?] at unshaped
      exact .dot unshaped
  | matrices =>
      cases leftFormed <;> cases leftTy
      cases rightFormed <;> cases rightTy
      simp [shape?, Ty.isAggregate, arrayShape?, productShape?] at unshaped
      exact .product unshaped
  | arrayByNumber scales aggregate numeric =>
      subst rightTy
      exact absurd unshaped (shape?_ne_none (.inr (Ty.isAggregate_of_isNumeric numeric)))
  | numberByArray aggregate numeric =>
      subst leftTy
      exact absurd unshaped (shape?_ne_none (.inl (Ty.isAggregate_of_isNumeric numeric)))

end Signature

/-- A matrix that cannot be without rows has a height and a width. -/
theorem Value.ArrayOf.exists_sizes {heights widths : Nat → Prop} {value : Value}
    (matrix : value.MatrixOf heights widths) (nonempty : ¬ heights 0) :
    (∃ height, heights height) ∧ ∃ width, widths width := by
  rcases matrix.exists_items with ⟨items, rfl, rows, heightHas⟩
  cases items with
  | nil => exact absurd heightHas nonempty
  | cons first rest =>
      rcases (rows first List.mem_cons_self).exists_items with ⟨cells, _, _, widthHas⟩
      exact ⟨⟨_, heightHas⟩, ⟨_, widthHas⟩⟩

namespace Precision

/-- Dimensions that do not fit have no length in common. -/
theorem exact_disjoint {first second : Dim} (unfit : first.compatible second = false)
    {length : Nat} (both : exact.Admits first length ∧ exact.Admits second length) : False := by
  rcases both with ⟨⟨rfl, _⟩, ⟨rfl, _⟩⟩
  simp [Dim.compatible] at unfit

/-- Vectors without a length in common have no dot product. -/
theorem dot_fails {first second : Dim} {left right : Value}
    (unfit : first.compatible second = false) (leftVector : left.VectorOf (exact.Admits first))
    (rightVector : right.VectorOf (exact.Admits second)) :
    Fails (Value.binary (.plain .mul) left right) := by
  rcases leftVector.exists_items with ⟨lefts, rfl, leftNumbers, leftLength⟩
  rcases rightVector.exists_items with ⟨rights, rfl, rightNumbers, rightLength⟩
  have different : lefts.length ≠ rights.length := by
    intro same
    exact exact_disjoint unfit ⟨leftLength, same ▸ rightLength⟩
  have product : Value.binary (.plain .mul) (.array lefts) (.array rights) =
      Value.dotProduct (.array lefts) (.array rights) := by
    apply Value.arrayProduct_vectors leftNumbers rightNumbers
    rintro ⟨rfl, rfl⟩
    exact different rfl
  rw [product, Value.dotProduct, Value.innerProduct, if_neg different]
  trivial

/-- Matrices whose inner sizes do not fit have no product. -/
theorem product_fails {rows inner height columns : Dim} {left right : Value}
    (unfit : inner.compatible height = false)
    (leftMatrix : left.MatrixOf (exact.Admits rows) (exact.Admits inner))
    (rightMatrix : right.MatrixOf (exact.Admits height) (exact.Admits columns)) :
    Fails (Value.binary (.plain .mul) left right) := by
  have product := Value.arrayProduct_matrices leftMatrix rightMatrix
  rcases leftMatrix.exists_items with ⟨_ | ⟨row, rows⟩, rfl, leftRows, leftHeight⟩
  · exact absurd leftHeight (exact_nonempty _)
  · rcases rightMatrix.exists_items with ⟨_ | ⟨head, tail⟩, rfl, rightRows, rightHeight⟩
    · exact absurd rightHeight (exact_nonempty _)
    · rcases Value.shape_matrix rows (leftRows row List.mem_cons_self) with
        ⟨length, leftShape, innerHas⟩
      rcases Value.shape_matrix tail (rightRows head List.mem_cons_self) with
        ⟨width, rightShape, _⟩
      have different : length ≠ tail.length + 1 := by
        rintro rfl
        exact exact_disjoint unfit ⟨innerHas, rightHeight⟩
      have unconformable : Value.conformable (Value.array (row :: rows)).shape
          (Value.array (head :: tail)).shape = false := by
        simp [leftShape, rightShape, Value.conformable, different]
      have refused : Value.binary (.plain .mul) (.array (row :: rows)) (.array (head :: tail)) =
          Value.mismatch (.array (row :: rows)) (.array (head :: tail)) := by
        refine product.trans ?_
        rw [Value.matrixProduct, if_neg (by simp [leftShape]), unconformable]
        rfl
      rw [refused]
      trivial

/-- Operands that do not fit have no result. -/
theorem binary_fails {op : BinaryOp} {left right : Descriptor} {first second : Value}
    (clash : Signature.Clash op left right) (leftFits : exact.Fits left first)
    (rightFits : exact.Fits right second) : Fails (Value.binary op first second) := by
  have numbers (left right : Value) := @Value.elementwise_number_yields (fun _ => True)
    trivial op.arith left right
  cases clash with
  | vectorPlaces byPlace unfit =>
      rcases leftFits with _ | _ | _ | leftVector
      rcases rightFits with _ | _ | _ | rightVector
      rcases leftVector.exists_items with ⟨lefts, rfl, _⟩
      rcases rightVector.exists_items with ⟨rights, rfl, _⟩
      rw [Value.binary_places byPlace]
      have sums := Value.elementwise_yields numbers (.inr trivial) leftVector rightVector
      refine sums.weaken fun value vector => ?_
      rcases vector.exists_items with ⟨items, _, _, both⟩
      exact exact_disjoint unfit both
  | matrixPlaces byPlace unfit =>
      rcases leftFits with _ | _ | _ | _ | leftMatrix
      rcases rightFits with _ | _ | _ | _ | rightMatrix
      rcases leftMatrix.exists_items with ⟨lefts, rfl, _⟩
      rcases rightMatrix.exists_items with ⟨rights, rfl, _⟩
      rw [Value.binary_places byPlace]
      have sums := Value.elementwise_yields
        (fun _ _ => Value.elementwise_yields numbers (.inr trivial)) (.inr trivial)
        leftMatrix rightMatrix
      refine sums.weaken fun value matrix => ?_
      rcases matrix.exists_sizes fun empty => exact_nonempty _ empty.1 with
        ⟨⟨height, sameHeight⟩, ⟨width, sameWidth⟩⟩
      rcases unfit with rowsUnfit | columnsUnfit
      · exact exact_disjoint rowsUnfit sameHeight
      · exact exact_disjoint columnsUnfit sameWidth
  | dot unfit =>
      rcases leftFits with _ | _ | _ | leftVector
      rcases rightFits with _ | _ | _ | rightVector
      exact dot_fails unfit leftVector rightVector
  | product unfit =>
      rcases leftFits with _ | _ | _ | _ | leftMatrix
      rcases rightFits with _ | _ | _ | _ | rightMatrix
      exact product_fails unfit leftMatrix rightMatrix

end Precision

/-! ## Indices out of bounds -/

/-- A place outside all lengths that an array may have holds nothing. -/
theorem Value.element_fails {member : Value → Prop} {lengths : Nat → Prop} {value : Value}
    {place : Int64}
    (outside : ∀ length : Nat, lengths length → place.toInt < 0 ∨ length ≤ place.toInt)
    (array : value.ArrayOf member lengths) : Fails (value.element place) := by
  rcases array.exists_items with ⟨items, rfl, _, lengthHas⟩
  simp only [Value.element]
  split
  · trivial
  · rename_i notNegative
    rw [Int64.lt_iff_toInt_lt, Int64.toInt_zero] at notNegative
    have missing : items[place.toInt.toNat]? = none := by
      have := outside _ lengthHas
      rw [List.getElem?_eq_none_iff]
      omega
    rw [missing]
    trivial

theorem Expr.outOfBounds_cons_complains {coordinate : Expr} {coordinates : List Expr}
    {size : Dim} {shape : Shape}
    (complained : AboutSizes (outOfBounds (coordinate :: coordinates) (size :: shape))) :
    (∃ index, coordinate.literal? = some index ∧ size.excludes index = true) ∨
      AboutSizes (outOfBounds coordinates shape) := by
  cases coordinate with
  | int span index =>
      simp only [outOfBounds] at complained
      split at complained
      · rename_i excluded
        exact .inl ⟨index, rfl, excluded⟩
      · exact .inr complained
  | _ => exact .inr (by simpa [outOfBounds] using complained)

namespace Precision

/-- A literal coordinate that was excluded lies outside an array of the exact size. -/
theorem outside_of_excluded {size : Dim} {coordinate : Expr} {place index : Int64}
    (denotes : coordinate.Denotes place) (spelled : coordinate.literal? = some index)
    (excluded : size.excludes index = true) (length : Nat) (admits : exact.Admits size length) :
    place.toInt < 0 ∨ length ≤ place.toInt := by
  rcases admits with ⟨rfl, _⟩
  rw [denotes index spelled]
  simpa [Dim.excludes] using excluded

/-- Reading a part of an array fails if one of the coordinates is out of bounds. -/
theorem read_fails {container : Descriptor} {value : Value} {coordinates : List Expr}
    {places : List Int64} (fits : exact.Fits container value)
    (complained : AboutSizes (Expr.outOfBounds coordinates container.shape))
    (denote : List.Forall₂ Expr.Denotes coordinates places) :
    Fails (value.read places) := by
  have nothing (others : List Expr) : ¬ AboutSizes (Expr.outOfBounds others []) := by
    cases others <;> simp [Expr.outOfBounds]
  cases denote with
  | nil => simp [Expr.outOfBounds] at complained
  | @cons coordinate place coordinates places denotes rest =>
      cases fits with
      | int => exact absurd complained (nothing _)
      | float => exact absurd complained (nothing _)
      | string => exact absurd complained (nothing _)
      | vector vector =>
          rcases Expr.outOfBounds_cons_complains complained with
            ⟨index, spelled, excluded⟩ | later
          · exact (Value.element_fails (outside_of_excluded denotes spelled excluded)
              vector).bind
          · exact absurd later (nothing _)
      | matrix matrix =>
          rcases Expr.outOfBounds_cons_complains complained with
            ⟨index, spelled, excluded⟩ | later
          · exact (Value.element_fails (outside_of_excluded denotes spelled excluded)
              matrix).bind
          · refine Yields.bind (Value.element_yields (.inl trivial) matrix) ?_
            intro row rowVector
            cases rest with
            | nil => simp [Expr.outOfBounds] at later
            | cons secondDenotes _ =>
                rcases Expr.outOfBounds_cons_complains later with
                  ⟨index, spelled, excluded⟩ | last
                · exact (Value.element_fails
                    (outside_of_excluded secondDenotes spelled excluded) rowVector).bind
                · exact absurd last (nothing _)

end Precision

/-! ## Where a complaint comes from -/

namespace Expr

variable {chain : ScopeChain}

theorem checkAll_complains {exprs : List Expr}
    (complained : AboutSizes (checkAll chain exprs).diagnostics) :
    ∃ expr ∈ exprs, AboutSizes (expr.check chain).diagnostics := by
  induction exprs with
  | nil => simp [checkAll] at complained
  | cons head tail ih =>
      simp only [checkAll, Checked.diagnostics_bind, AboutSizes.append_iff] at complained
      rcases complained with here | later
      · exact ⟨head, List.mem_cons_self, here⟩
      · rcases ih later with ⟨expr, member, there⟩
        exact ⟨expr, List.mem_cons_of_mem _ member, there⟩

theorem rowCheckAll_complains {rows : List Row}
    (complained : AboutSizes (Row.checkAll chain rows).diagnostics) :
    ∃ row ∈ rows, ∃ cell ∈ row.cells, AboutSizes (cell.check chain).diagnostics := by
  induction rows with
  | nil => simp [Row.checkAll] at complained
  | cons head tail ih =>
      cases head with
      | mk span cells =>
          simp only [Row.checkAll, Checked.diagnostics_bind, AboutSizes.append_iff] at complained
          rcases complained with here | later
          · exact ⟨_, List.mem_cons_self, checkAll_complains here⟩
          · rcases ih later with ⟨row, member, there⟩
            exact ⟨row, List.mem_cons_of_mem _ member, there⟩

theorem checkCoordinates_complains {coordinates : List Expr}
    (complained : AboutSizes (checkCoordinates chain coordinates).diagnostics) :
    ∃ coordinate ∈ coordinates, AboutSizes (coordinate.check chain).diagnostics := by
  induction coordinates with
  | nil => simp [checkCoordinates] at complained
  | cons head tail ih =>
      rw [checkCoordinates, Checked.diagnostics_bind, AboutSizes.append_iff] at complained
      have later (there : AboutSizes (checkCoordinates chain tail).diagnostics) :
          ∃ coordinate ∈ head :: tail, AboutSizes (coordinate.check chain).diagnostics := by
        rcases ih there with ⟨coordinate, member, found⟩
        exact ⟨coordinate, List.mem_cons_of_mem _ member, found⟩
      rcases complained with here | complained
      · exact ⟨head, List.mem_cons_self, here⟩
      · split at complained
        · exact later (by simpa using complained)
        · split at complained
          · exact later complained
          · exact later (by simpa [Checked.complain, Complaint.AboutSizes] using complained)

theorem checkSizes_complains {arguments : List Expr}
    (complained : AboutSizes (checkSizes chain arguments).diagnostics) :
    ∃ argument ∈ arguments, AboutSizes (argument.check chain).diagnostics := by
  induction arguments with
  | nil => simp [checkSizes] at complained
  | cons head tail ih =>
      rw [checkSizes, Checked.diagnostics_bind, AboutSizes.append_iff] at complained
      rcases complained with here | complained
      · exact ⟨head, List.mem_cons_self, here⟩
      · split at complained
        · simp at complained
        · split at complained
          · rcases ih complained with ⟨argument, member, found⟩
            exact ⟨argument, List.mem_cons_of_mem _ member, found⟩
          · simp [Checked.complain, Complaint.AboutSizes] at complained

theorem checkVariable_silent {name : String} {span : Span} :
    ¬ AboutSizes (checkVariable chain name span).diagnostics := by
  unfold checkVariable
  split
  · simp
  · simp [Complaint.AboutSizes]

/-- A reference is complained about for a coordinate, or for a literal one out of bounds. -/
theorem reference_complains {span : Span} {name : Located String} {coordinates : List Expr}
    (complained : AboutSizes ((Expr.reference span name coordinates).check chain).diagnostics) :
    (∃ coordinate ∈ coordinates, AboutSizes (coordinate.check chain).diagnostics) ∨
      ∃ container, chain.get? name.item = some container ∧
        (checkCoordinates chain coordinates).result = true ∧
        AboutSizes (outOfBounds coordinates container.shape) := by
  simp only [check, Checked.diagnostics_bind, AboutSizes.append_iff, checkVariable_silent,
    false_or] at complained
  split at complained
  · simp at complained
  · rename_i known
    have found := checkVariable_clean (checkVariable_defined (Bool.not_eq_true _ ▸ known))
    split at complained
    · simp [Checked.refuse, Complaint.AboutSizes] at complained
    · rw [Checked.diagnostics_bind, AboutSizes.append_iff] at complained
      rcases complained with inside | complained
      · exact .inl (checkCoordinates_complains inside)
      · split at complained
        · rename_i sound
          refine .inr ⟨_, found, sound, ?_⟩
          unfold checkSelection at complained
          split at complained
          · simp at complained
          · exact complained
        · simp at complained

theorem call_complains {span : Span} {builtin : Builtin} {arguments : List Expr}
    (complained : AboutSizes ((Expr.call span builtin arguments).check chain).diagnostics) :
    ∃ argument ∈ arguments, AboutSizes (argument.check chain).diagnostics := by
  rw [check, Checked.diagnostics_bind, AboutSizes.append_iff] at complained
  rcases complained with inside | complained
  · exact checkSizes_complains inside
  · split at complained
    · unfold checkConstructor at complained
      split at complained
      · simp at complained
      · simp at complained
      · simp [Checked.refuse, Complaint.AboutSizes] at complained
    · simp at complained

theorem checkBinary_complains {span : Span} {op : BinaryOp} {left right : Descriptor}
    (complained : AboutSizes (checkBinary span op left right).diagnostics) :
    left.isUndefined = false ∧ right.isUndefined = false ∧
      (∃ ty, Signature.binary op left.ty right.ty = some ty) ∧
        Signature.shape? op left right = none := by
  unfold checkBinary at complained
  split at complained
  · simp at complained
  · rename_i bothDefined
    rw [Bool.or_eq_true, not_or, Bool.not_eq_true, Bool.not_eq_true] at bothDefined
    split at complained
    · simp [Checked.refuse, Complaint.AboutSizes] at complained
    · rename_i ty combined
      refine ⟨bothDefined.1, bothDefined.2, ⟨ty, combined⟩, ?_⟩
      split at complained
      · assumption
      · simp at complained

theorem checkComparison_silent {span : Span} {op : Comparison} {left right : Descriptor} :
    ¬ AboutSizes (checkComparison span op left right).diagnostics := by
  unfold checkComparison
  split
  · simp
  · split
    · simp [Checked.refuse, Complaint.AboutSizes]
    · simp

theorem checkUnary_silent {span : Span} {op : UnaryOp} {operand : Descriptor} :
    ¬ AboutSizes (checkUnary span op operand).diagnostics := by
  unfold checkUnary
  split
  · simp
  · split
    · simp [Checked.refuse, Complaint.AboutSizes]
    · cases op <;> simp

theorem checkRows_silent {span : Span} {rows : List Row} :
    ¬ AboutSizes (checkRows span rows).diagnostics := by
  simp only [checkRows]
  split
  · simp
  · simp [Checked.refuse, Complaint.AboutSizes]

/-! ## A part without a value -/

variable {memory : Memory}

theorem evalAll_fails {exprs : List Expr} {expr : Expr} (member : expr ∈ exprs)
    (fails : Fails (expr.eval memory)) : Fails (evalAll memory exprs) := by
  induction member with
  | head tail =>
      rw [evalAll]
      exact fails.bind
  | tail head _ ih =>
      rw [evalAll]
      exact .bind_of_next fun _ => ih.bind

theorem rowEvalAll_fails {rows : List Row} {row : Row} {cell : Expr} (inRows : row ∈ rows)
    (inRow : cell ∈ row.cells) (fails : Fails (cell.eval memory)) :
    Fails (Row.evalAll memory rows) := by
  induction inRows with
  | head tail =>
      cases row
      rw [Row.evalAll]
      exact (evalAll_fails inRow fails).bind
  | tail head _ ih =>
      cases head
      rw [Row.evalAll]
      exact .bind_of_next fun _ => ih.bind

theorem evalInts_fails {exprs : List Expr} {expr : Expr} (member : expr ∈ exprs)
    (fails : Fails (expr.eval memory)) : Fails (evalInts memory exprs) := by
  induction member with
  | head tail =>
      rw [evalInts]
      exact fails.bind
  | tail head _ ih =>
      rw [evalInts]
      exact .bind_of_next fun _ => .bind_of_next fun _ => ih.bind

end Expr

/-! ## Complaints are genuine -/

namespace Precision

variable {computed : Prop} {chain : ScopeChain} {memory : Memory}

theorem accepted_of_suits {expr : Expr}
    (suits : ∀ node ∈ expr.nodes, exact.Suits chain computed node)
    (defined : expr.Defined chain) : expr.Accepted chain :=
  Expr.accepted_of_defined expr (fun node member => (suits node member).numeric) defined

theorem reference_fails {span : Span} {name : Located String} {coordinates : List Expr}
    {container : Descriptor} (agrees : exact.Agrees chain memory)
    (each : ∀ coordinate ∈ coordinates, ∀ node ∈ coordinate.nodes,
      exact.Suits chain computed node)
    (found : chain.get? name.item = some container)
    (sound : (Expr.checkCoordinates chain coordinates).result = true)
    (complained : AboutSizes (Expr.outOfBounds coordinates container.shape)) :
    Fails ((Expr.reference span name coordinates).eval memory) := by
  rcases Expr.checkCoordinates_sound
      (fun coordinate member => accepted_of_suits (each coordinate member)) sound with ⟨_, ints⟩
  have places := evalInts_of_accepted ints fun coordinate member =>
    evaluates agrees coordinate (each coordinate member)
  rcases agrees.fits _ _ found with ⟨value, bound, fits⟩
  rw [Expr.eval]
  refine Yields.bind places.gives fun places denote => ?_
  simp only [Memory.get, Place.name, bound]
  exact read_fails fits complained denote

theorem combine_fails {span : Span} {left right : Expr} {op : BinaryOp}
    (agrees : exact.Agrees chain memory)
    (leftSuits : ∀ node ∈ left.nodes, exact.Suits chain computed node)
    (rightSuits : ∀ node ∈ right.nodes, exact.Suits chain computed node)
    (complained : AboutSizes (Expr.checkBinary span op (left.check chain).result
      (right.check chain).result).diagnostics) :
    Fails ((Expr.binary span left op right).eval memory) := by
  rcases Expr.checkBinary_complains complained with
    ⟨leftDefined, rightDefined, ⟨ty, combined⟩, unshaped⟩
  have leftAccepted := accepted_of_suits leftSuits leftDefined
  have rightAccepted := accepted_of_suits rightSuits rightDefined
  have first := evaluates agrees left leftSuits
  have second := evaluates agrees right rightSuits
  have clash := Signature.Clash.of_rule (Signature.Rule.of_binary combined)
    (first.formed leftAccepted) (second.formed rightAccepted) unshaped
  rw [Expr.eval]
  refine Yields.bind (first.fits leftAccepted).gives fun leftValue leftFits => ?_
  refine Yields.bind (second.fits rightAccepted).gives fun rightValue rightFits => ?_
  exact binary_fails clash leftFits rightFits

/-- An expression that is complained about has no value, if all its nodes suit the reading. -/
theorem eval_fails (agrees : exact.Agrees chain memory) (expr : Expr)
    (suits : ∀ node ∈ expr.nodes, exact.Suits chain computed node)
    (complained : AboutSizes (expr.check chain).diagnostics) : Fails (expr.eval memory) := by
  induction expr with
  | int span value => simp [Expr.check] at complained
  | float span value => simp [Expr.check] at complained
  | string span value => simp [Expr.check] at complained
  | var span name =>
      rw [Expr.check] at complained
      exact absurd complained Expr.checkVariable_silent
  | vector span elements ih =>
      simp only [Expr.check, Checked.diagnostics_bind, Checked.diagnostics_pure,
        List.append_nil] at complained
      rcases Expr.checkAll_complains complained with ⟨element, member, there⟩
      have inside := suits_of_mem (List.forall_mem_cons.mp suits).2 member
      rw [Expr.eval]
      exact (Expr.evalAll_fails member (ih element member inside there)).bind
  | matrix span rows ih =>
      simp only [Expr.check, Checked.diagnostics_bind, AboutSizes.append_iff,
        Expr.checkRows_silent, or_false] at complained
      rcases Expr.rowCheckAll_complains complained with ⟨row, inRows, cell, inRow, there⟩
      have inside : ∀ node ∈ cell.nodes, exact.Suits chain computed node := by
        intro node found
        exact suits node
          (List.mem_cons_of_mem _ (Expr.nodes_subset_rowNodes inRows inRow found))
      rw [Expr.eval]
      exact (Expr.rowEvalAll_fails inRows inRow (ih row inRows cell inRow inside there)).bind
  | reference span name coordinates ih =>
      have each : ∀ coordinate ∈ coordinates, ∀ node ∈ coordinate.nodes,
          exact.Suits chain computed node :=
        fun coordinate member => suits_of_mem (List.forall_mem_cons.mp suits).2 member
      rcases Expr.reference_complains complained with
        ⟨coordinate, member, there⟩ | ⟨container, found, sound, outside⟩
      · rw [Expr.eval]
        exact (Expr.evalInts_fails member
          (ih coordinate member (each coordinate member) there)).bind
      · exact reference_fails agrees each found sound outside
  | call span builtin arguments ih =>
      rcases Expr.call_complains complained with ⟨argument, member, there⟩
      have inside := suits_of_mem (List.forall_mem_cons.mp suits).2 member
      rw [Expr.eval]
      exact (Expr.evalInts_fails member (ih argument member inside there)).bind
  | binary span left op right leftIH rightIH =>
      have leftSuits : ∀ node ∈ left.nodes, exact.Suits chain computed node :=
        fun node member => suits node (by simp [Expr.nodes, member])
      have rightSuits : ∀ node ∈ right.nodes, exact.Suits chain computed node :=
        fun node member => suits node (by simp [Expr.nodes, member])
      simp only [Expr.check, Checked.diagnostics_bind, AboutSizes.append_iff] at complained
      rcases complained with inLeft | inRight | here
      · rw [Expr.eval]
        exact (leftIH leftSuits inLeft).bind
      · rw [Expr.eval]
        exact .bind_of_next fun _ => (rightIH rightSuits inRight).bind
      · exact combine_fails agrees leftSuits rightSuits here
  | compare span left op right leftIH rightIH =>
      simp only [Expr.check, Checked.diagnostics_bind, AboutSizes.append_iff,
        Expr.checkComparison_silent, or_false] at complained
      rw [Expr.eval]
      rcases complained with inLeft | inRight
      · exact (leftIH (fun node member => suits node (by simp [Expr.nodes, member]))
          inLeft).bind
      · exact .bind_of_next fun _ =>
          (rightIH (fun node member => suits node (by simp [Expr.nodes, member])) inRight).bind
  | unary span op operand ih =>
      simp only [Expr.check, Checked.diagnostics_bind, AboutSizes.append_iff,
        Expr.checkUnary_silent, or_false] at complained
      rw [Expr.eval]
      exact (ih (fun node member => suits node (by simp [Expr.nodes, member])) complained).bind

end Precision

/--
What the check calls a mismatch of shapes or an index out of bounds is one.  Where every
name in scope has a sized descriptor and a value that conforms to it, an expression with
filled literals of numbers that gets such a diagnostic, for itself or for any of its parts,
ends in a fault.
-/
theorem eval_faults_of_size_complaint {chain : ScopeChain} {memory : Memory} {expr : Expr}
    (visible : ∀ name descriptor, chain.get? name = some descriptor →
      descriptor.Sized ∧
        ∃ value, memory.lookup? name = some value ∧ value.Conforms descriptor)
    (indexed : ∀ node ∈ expr.nodes, node.Indexed)
    (numeric : ∀ node ∈ expr.nodes, node.Numeric chain)
    (filled : ∀ node ∈ expr.nodes, node.Filled)
    (complained : ∃ diagnostic ∈ (expr.check chain).diagnostics,
      diagnostic.complaint.AboutSizes) :
    ∃ fault, expr.eval memory = .error fault := by
  rw [← fails_iff]
  exact Precision.eval_fails (Precision.agrees_of_visible visible) expr
    (Precision.exact_suits indexed numeric filled) complained

namespace Sample

/-- The expression `i * (m + [[i, 2, 3], [0, 1, i]]) * m[i, 7]`. -/
def unfitExpr : Expr :=
  .binary default
    (.binary default (.var default "i") (.plain .mul)
      (.binary default (.var default "m") (.plain .add)
        (.matrix default
          [.mk default [.var default "i", .int default 2, .int default 3],
            .mk default [.int default 0, .int default 1, .var default "i"]])))
    (.plain .mul)
    (.reference default ⟨"m", default⟩ [.var default "i", .int default 7])

end Sample

theorem eval_faults_unfit :
    (Sample.unfitExpr.check Sample.squareChain).diagnostics.map Diagnostic.complaint =
        [.shapeMismatch [.known 2, .known 2] [.known 2, .known 3],
          .outOfBounds 7 (.known 2)] ∧
      ∃ fault, Sample.unfitExpr.eval Sample.squareMemory = .error fault := by
  have complaints :
      (Sample.unfitExpr.check Sample.squareChain).diagnostics.map Diagnostic.complaint =
        [.shapeMismatch [.known 2, .known 2] [.known 2, .known 3],
          .outOfBounds 7 (.known 2)] := by
    decide +kernel
  have index : ((Expr.var default "i").check Sample.squareChain).result.ty = .int := by
    decide +kernel
  have literal (number : Int64) :
      ((Expr.int default number).check Sample.squareChain).result.ty = .int := rfl
  refine ⟨complaints, eval_faults_of_size_complaint Sample.square_visible ?_ ?_ ?_ ?_⟩
  · simp [Sample.unfitExpr, Expr.nodes, Expr.nodesOfAll, Row.nodesOfAll, Expr.Indexed]
  · simp [Sample.unfitExpr, Expr.nodes, Expr.nodesOfAll, Row.nodesOfAll, Expr.Numeric,
      Row.cells, Ty.isNumeric, index, literal]
  · simp [Sample.unfitExpr, Expr.nodes, Expr.nodesOfAll, Row.nodesOfAll, Expr.Filled,
      Row.cells]
  · have listed : Complaint.outOfBounds 7 (.known 2) ∈
        (Sample.unfitExpr.check Sample.squareChain).diagnostics.map Diagnostic.complaint := by
      rw [complaints]
      exact List.mem_cons_of_mem _ List.mem_cons_self
    rcases List.mem_map.mp listed with ⟨diagnostic, member, isOutOfBounds⟩
    refine ⟨diagnostic, member, ?_⟩
    rw [isOutOfBounds]
    trivial

end MatrixScript
