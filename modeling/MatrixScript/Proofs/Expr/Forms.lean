import MatrixScript.Proofs.Expr.Soundness
import MatrixScript.Proofs.Forms

/-!
# Forms of expressions

Let the values in memory be rectangular, and let the variables that an accepted expression
reads have values that resemble their types.  Then the expression has no value of another
form than that of its type.  Nothing is said about whether it has a value.

A product of two arrays without members is ruled out: it can be checked to be a number.
-/

namespace MatrixScript

/-- Every variable in memory has a rectangular value. -/
def Memory.Rectangular (memory : Memory) : Prop :=
  memory.All fun _ value => value.Rectangular

/-- If the name is in scope and has a value, the value resembles its type. -/
def ScopeChain.Foresees (chain : ScopeChain) (memory : Memory) (name : String) : Prop :=
  ∀ descriptor ∈ chain.get? name, ∀ value ∈ memory.lookup? name, value.Resembles descriptor.ty

instance (chain : ScopeChain) (memory : Memory) (name : String) :
    Decidable (chain.Foresees memory name) :=
  inferInstanceAs (Decidable (∀ descriptor ∈ chain.get? name, _))

theorem ScopeChain.Foresees.hasForm {chain : ScopeChain} {memory : Memory} {name : String}
    {descriptor : Descriptor} {value : Value} (foresees : chain.Foresees memory name)
    (rectangular : memory.Rectangular) (visible : chain.get? name = some descriptor)
    (held : memory.lookup? name = some value) : value.HasForm descriptor.ty :=
  (foresees descriptor visible value held).hasForm (rectangular.lookup? held)

namespace Expr

/-- If a variable is read here, the checker foresees its value. -/
def Foreseen (chain : ScopeChain) (memory : Memory) : Expr → Prop
  | .var _ name => chain.Foresees memory name
  | .reference _ name _ => chain.Foresees memory name.item
  | _ => True

instance (chain : ScopeChain) (memory : Memory) (expr : Expr) :
    Decidable (expr.Foreseen chain memory) :=
  match expr with
  | .var _ _ | .reference _ _ _ => inferInstanceAs (Decidable (chain.Foresees memory _))
  | .int _ _ | .float _ _ | .string _ _ | .vector _ _ | .matrix _ _ | .call _ _ _
  | .binary _ _ _ _ | .compare _ _ _ _ | .unary _ _ _ => isTrue trivial

/-- The number of members of the array that is the value of the expression. -/
def length? (memory : Memory) (expr : Expr) : Option Nat :=
  match expr.eval memory with
  | .ok (.array items) => some items.length
  | _ => none

/-- Two arrays without members are multiplied here. -/
def MultipliesEmpty (memory : Memory) : Expr → Prop
  | .binary _ left op right =>
      op = .plain .mul ∧ left.length? memory = some 0 ∧ right.length? memory = some 0
  | _ => False

instance (memory : Memory) (expr : Expr) : Decidable (expr.MultipliesEmpty memory) :=
  match expr with
  | .binary _ _ _ _ => inferInstanceAs (Decidable (_ ∧ _ ∧ _))
  | .int _ _ | .float _ _ | .string _ _ | .var _ _ | .vector _ _ | .matrix _ _
  | .reference _ _ _ | .call _ _ _ | .compare _ _ _ _ | .unary _ _ _ => isFalse id

/-- What is asked of every node of an expression. -/
structure Regular (chain : ScopeChain) (memory : Memory) (node : Expr) : Prop where
  indexed : node.Indexed
  numeric : node.Numeric chain
  foreseen : node.Foreseen chain memory
  nonempty : ¬ node.MultipliesEmpty memory

variable {chain : ScopeChain} {memory : Memory}

theorem length?_of_eval {expr : Expr} {items : List Value}
    (evaluated : expr.eval memory = .ok (.array items)) :
    expr.length? memory = some items.length := by
  rw [length?, evaluated]

theorem vector_hasForm {span : Span} {elements : List Expr}
    (numeric : (Expr.vector span elements).Numeric chain)
    (each : ∀ element ∈ elements, element.Accepted chain →
      Gives (Value.HasForm (element.check chain).result.ty) (element.eval memory))
    (accepted : (Expr.vector span elements).Accepted chain) :
    Gives (Value.HasForm ((Expr.vector span elements).check chain).result.ty)
      ((Expr.vector span elements).eval memory) := by
  simp only [Accepted, check, Checked.diagnostics_bind, Checked.diagnostics_pure,
    List.append_nil, checkAll_clean] at accepted
  have numbers : ∀ element ∈ elements, Gives Value.IsNumber (element.eval memory) := by
    intro element member
    exact (each element member (accepted element member)).weaken fun _ has =>
      has.isNumber (numeric element member)
  rw [eval]
  apply Yields.bind (evalAll_yields numbers)
  rintro items ⟨itemNumbers, _⟩
  exact ⟨itemNumbers, trivial⟩

theorem matrix_hasForm {span : Span} {rows : List Row}
    (numeric : (Expr.matrix span rows).Numeric chain)
    (each : ∀ row ∈ rows, ∀ cell ∈ row.cells, cell.Accepted chain →
      Gives (Value.HasForm (cell.check chain).result.ty) (cell.eval memory))
    (accepted : (Expr.matrix span rows).Accepted chain) :
    Gives (Value.HasForm ((Expr.matrix span rows).check chain).result.ty)
      ((Expr.matrix span rows).eval memory) := by
  simp only [Accepted, check, Checked.diagnostics_bind, List.append_eq_nil_iff,
    rowCheckAll_clean] at accepted
  rcases accepted with ⟨cellsAccepted, rowsClean⟩
  rcases checkRows_clean rowsClean with ⟨width, even, _, result⟩
  have numbers : ∀ row ∈ rows, ∀ cell ∈ row.cells, Gives Value.IsNumber (cell.eval memory) := by
    intro row inRows cell inRow
    exact (each row inRows cell inRow (cellsAccepted row inRows cell inRow)).weaken fun _ has =>
      has.isNumber (numeric row inRows cell inRow)
  have evaluated : Gives (fun items => (∀ item ∈ items, item.VectorOf (· = width)) ∧
      items.length = rows.length) (Row.evalAll memory rows) :=
    rowEvalAll_yields numbers even
  simp only [eval, check, Checked.result_bind, result]
  apply Yields.bind evaluated
  rintro items ⟨itemRows, _⟩
  exact ⟨width, itemRows, trivial⟩

theorem variable_hasForm {span : Span} {name : String} (rectangular : memory.Rectangular)
    (foresees : chain.Foresees memory name) (accepted : (Expr.var span name).Accepted chain) :
    Gives (Value.HasForm ((Expr.var span name).check chain).result.ty)
      ((Expr.var span name).eval memory) := by
  rw [eval, Memory.get, Place.name]
  cases held : memory.lookup? name with
  | none => trivial
  | some value => exact foresees.hasForm rectangular (checkVariable_clean accepted) held

theorem reference_hasForm {span : Span} {name : Located String} {coordinates : List Expr}
    (chainProper : chain.Formed fun _ => True) (rectangular : memory.Rectangular)
    (foresees : chain.Foresees memory name.item) (indexed : coordinates ≠ [])
    (accepted : (Expr.reference span name coordinates).Accepted chain) :
    Gives (Value.HasForm ((Expr.reference span name coordinates).check chain).result.ty)
      ((Expr.reference span name coordinates).eval memory) := by
  rw [eval]
  cases evaluated : evalInts memory coordinates with
  | error fault => trivial
  | ok places =>
      rcases reference_places chainProper accepted indexed evaluated with
        ⟨container, visible, proper, _, notAll, few, selected⟩
      rw [selected, ok_bind, Memory.get, Place.name]
      cases held : memory.lookup? name.item with
      | none => trivial
      | some value =>
          exact Value.read_hasForm proper notAll few (foresees.hasForm rectangular visible held)

theorem checkConstructor_ty {span : Span} {builtin : Builtin} {arguments : List Expr}
    (clean : (checkConstructor span builtin arguments).diagnostics = []) :
    (checkConstructor span builtin arguments).result.ty = .matrix := by
  unfold checkConstructor at clean ⊢
  split at clean
  · rfl
  · rfl
  · cases clean

theorem call_hasForm {span : Span} {builtin : Builtin} {arguments : List Expr}
    (chainProper : chain.Formed fun _ => True)
    (accepted : (Expr.call span builtin arguments).Accepted chain) :
    Gives (Value.HasForm ((Expr.call span builtin arguments).check chain).result.ty)
      ((Expr.call span builtin arguments).eval memory) := by
  rcases call_clean (fun _ _ clean => (check_proper chainProper clean).isUndefined_eq) accepted
    with ⟨_, clean, result⟩
  rw [result, checkConstructor_ty clean, eval]
  cases evalInts memory arguments with
  | error fault => trivial
  | ok sizes => exact Value.build_hasForm builtin sizes

theorem binary_hasForm {span : Span} {left right : Expr} {op : BinaryOp}
    (chainProper : chain.Formed fun _ => True)
    (nonempty : ¬ (Expr.binary span left op right).MultipliesEmpty memory)
    (leftGives : left.Accepted chain →
      Gives (Value.HasForm (left.check chain).result.ty) (left.eval memory))
    (rightGives : right.Accepted chain →
      Gives (Value.HasForm (right.check chain).result.ty) (right.eval memory))
    (accepted : (Expr.binary span left op right).Accepted chain) :
    Gives (Value.HasForm ((Expr.binary span left op right).check chain).result.ty)
      ((Expr.binary span left op right).eval memory) := by
  simp only [Accepted, check, Checked.diagnostics_bind, List.append_eq_nil_iff] at accepted
  rcases accepted with ⟨leftAccepted, rightAccepted, clean⟩
  have combination := Signature.Combination.of_clean (check_proper chainProper leftAccepted)
    (check_proper chainProper rightAccepted) clean
  have leftHas := gives_iff.mp (leftGives leftAccepted)
  have rightHas := gives_iff.mp (rightGives rightAccepted)
  simp only [eval, check, Checked.result_bind]
  cases firstIs : left.eval memory with
  | error fault => trivial
  | ok first =>
      cases secondIs : right.eval memory with
      | error fault => trivial
      | ok second =>
          apply Value.binary_hasForm combination ?_ (leftHas first firstIs)
            (rightHas second secondIs)
          rintro ⟨rfl, rfl, rfl⟩
          exact nonempty ⟨rfl, length?_of_eval firstIs, length?_of_eval secondIs⟩

theorem unary_hasForm {span : Span} {operand : Expr} {op : UnaryOp}
    (chainProper : chain.Formed fun _ => True)
    (operandGives : operand.Accepted chain →
      Gives (Value.HasForm (operand.check chain).result.ty) (operand.eval memory))
    (accepted : (Expr.unary span op operand).Accepted chain) :
    Gives (Value.HasForm ((Expr.unary span op operand).check chain).result.ty)
      ((Expr.unary span op operand).eval memory) := by
  simp only [Accepted, check, Checked.diagnostics_bind, List.append_eq_nil_iff] at accepted
  rcases accepted with ⟨operandAccepted, clean⟩
  simp only [eval, check, Checked.result_bind]
  apply Yields.bind (operandGives operandAccepted)
  intro value has
  rcases checkUnary_clean (check_proper chainProper operandAccepted) clean with
    ⟨rfl, numeric, result⟩ | ⟨rfl, rows, columns, name, operandIs, result⟩
  · rw [result]
    exact Value.negate_isNumber.weaken fun _ number => .of_isNumber number numeric
  · rw [result]
    rw [operandIs] at has
    exact Value.transpose_hasForm has

/-- An accepted expression has no value of another form than that of its type. -/
theorem eval_hasForm (chainProper : chain.Formed fun _ => True)
    (rectangular : memory.Rectangular) (expr : Expr)
    (regular : ∀ node ∈ expr.nodes, node.Regular chain memory)
    (accepted : expr.Accepted chain) :
    Gives (Value.HasForm (expr.check chain).result.ty) (expr.eval memory) := by
  induction expr with
  | int span value => exact trivial
  | float span value => exact trivial
  | string span value => exact ⟨value, rfl⟩
  | var span name =>
      exact variable_hasForm rectangular (regular _ (self_mem_nodes _)).foreseen accepted
  | vector span elements ih =>
      apply vector_hasForm (regular _ (self_mem_nodes _)).numeric ?_ accepted
      intro element member elementAccepted
      have inside : ∀ node ∈ element.nodes, node.Regular chain memory := fun node found =>
        regular node (List.mem_cons_of_mem _ (nodes_subset_nodesOfAll member found))
      exact ih element member inside elementAccepted
  | matrix span rows ih =>
      apply matrix_hasForm (regular _ (self_mem_nodes _)).numeric ?_ accepted
      intro row inRows cell inRow cellAccepted
      have inside : ∀ node ∈ cell.nodes, node.Regular chain memory := fun node found =>
        regular node (List.mem_cons_of_mem _ (nodes_subset_rowNodes inRows inRow found))
      exact ih row inRows cell inRow inside cellAccepted
  | reference span name coordinates ih =>
      have here := regular _ (self_mem_nodes _)
      exact reference_hasForm chainProper rectangular here.foreseen here.indexed accepted
  | call span builtin arguments ih => exact call_hasForm chainProper accepted
  | binary span left op right leftIH rightIH =>
      have leftRegular : ∀ node ∈ left.nodes, node.Regular chain memory := fun node found =>
        regular node (by simp [nodes, found])
      have rightRegular : ∀ node ∈ right.nodes, node.Regular chain memory := fun node found =>
        regular node (by simp [nodes, found])
      apply binary_hasForm chainProper (regular _ (self_mem_nodes _)).nonempty ?_ ?_ accepted
      · intro leftAccepted
        exact leftIH leftRegular leftAccepted
      · intro rightAccepted
        exact rightIH rightRegular rightAccepted
  | compare span left op right leftIH rightIH =>
      simp only [Accepted, check, Checked.diagnostics_bind, List.append_eq_nil_iff] at accepted
      have result := (checkComparison_clean (check_proper chainProper accepted.1)
        (check_proper chainProper accepted.2.1) accepted.2.2).1
      simp only [eval, check, Checked.result_bind, result]
      cases left.eval memory with
      | error fault => trivial
      | ok first =>
          cases right.eval memory with
          | error fault => trivial
          | ok second => exact Value.compare_isNumber
  | unary span op operand ih =>
      have inside : ∀ node ∈ operand.nodes, node.Regular chain memory := fun node found =>
        regular node (by simp [nodes, found])
      apply unary_hasForm chainProper ?_ accepted
      intro operandAccepted
      exact ih inside operandAccepted

end Expr

end MatrixScript
