import MatrixScript.Expr.Evaluation
import MatrixScript.Expr.Parser
import MatrixScript.Expr.Typing
import MatrixScript.Proofs.Expr.Grammar
import MatrixScript.Proofs.Expr.Nodes
import MatrixScript.Proofs.Layout
import MatrixScript.Proofs.Outcome

/-!
# The layout of expressions

What is made of an expression does not depend on its spans.  The readers of expressions
are blind.  The check of a bare expression finds the same descriptor, and the same
diagnostics up to their spans.  A bare expression has the same value or the same fault.
-/

namespace MatrixScript

open Reader

/-! ## Reading -/

namespace Expr

variable {nested : Reader Expr}

/-- The reader makes a bare expression of a bare stream. -/
abbrev BlindTo (reader onBare : Reader Expr) : Prop :=
  Blind bare reader onBare

theorem coordinates_blind (blind : BlindTo nested nested) (fuel : Nat) (sliced : Bool) :
    Blind (List.map bare) (coordinates nested fuel sliced) (coordinates nested fuel sliced) := by
  induction fuel generalizing sliced with
  | zero => exact .unexpected _
  | succ fuel ih =>
      rw [coordinates]
      refine .bindAccept? (fun _ => ?_) ?_
      · exact .bindAccept? (fun _ => ih true) (.pure rfl)
      · cases sliced with
        | true => exact .reject _
        | false =>
            refine .bindPeek? fun token => ?_
            split
            · exact .unexpected _
            · refine Blind.bind blind fun head => ?_
              refine .bindAccept? (fun _ => ?_) (.pure rfl)
              exact (ih false).bind fun tail => .pure rfl

theorem referenceFrom_blind (blind : BlindTo nested nested) (fuel : Nat)
    (name : Located String) :
    BlindTo (referenceFrom nested fuel name) (referenceFrom nested fuel name.bare) := by
  refine (Blind.expect _).bind fun _ => ?_
  refine (coordinates_blind blind fuel false).bind fun list => ?_
  refine (Blind.expect _).bind fun close => ?_
  cases list with
  | nil => exact .rejectAt _ _
  | cons head tail => exact .pure (by simp [bare, bareAll, bareAll_eq_map, Located.bare])

theorem variableOrReference_blind (blind : BlindTo nested nested) (fuel : Nat) :
    BlindTo (variableOrReference nested fuel) (variableOrReference nested fuel) := by
  refine Blind.identifier.bind fun name => ?_
  refine .bindPeek? fun token => ?_
  split
  · exact referenceFrom_blind blind fuel name
  · exact .pure rfl

theorem callFrom_blind (blind : BlindTo nested nested) (fuel : Nat) (builtin : Builtin)
    (start : Span) :
    BlindTo (callFrom nested fuel builtin start) (callFrom nested fuel builtin default) := by
  refine (Blind.expect _).bind fun _ => ?_
  refine (Blind.itemsUntil blind fuel _).bind fun result => ?_
  exact .pure (by simp [bare, bareAll_eq_map])

theorem row_blind (blind : BlindTo nested nested) (fuel : Nat) :
    Blind Row.bare (row nested fuel) (row nested fuel) := by
  refine (Blind.expect _).bind fun start => ?_
  refine (Blind.itemsUntil blind fuel _).bind fun result => ?_
  exact .pure (by simp [Row.bare, bareAll_eq_map])

theorem arrayFrom_blind (blind : BlindTo nested nested) (fuel : Nat) (start : Span) :
    BlindTo (arrayFrom nested fuel start) (arrayFrom nested fuel default) := by
  refine .bindPeek? fun token => ?_
  split
  · refine ((row_blind blind fuel).items fuel).bind fun rows => ?_
    refine (Blind.expect _).bind fun close => ?_
    exact .pure (by simp [bare, Row.bareAll_eq_map])
  · refine (Blind.itemsUntil blind fuel _).bind fun result => ?_
    exact .pure (by simp [bare, bareAll_eq_map])

theorem bare_withSpan_default (expr : Expr) : expr.bare.withSpan default = expr.bare := by
  cases expr <;> rfl

theorem parenthesizedFrom_blind (blind : BlindTo nested nested) (start : Span) :
    BlindTo (parenthesizedFrom nested start) (parenthesizedFrom nested default) := by
  refine Blind.bind blind fun inner => ?_
  refine (Blind.expect _).bind fun close => ?_
  exact .pure (by simp [bare_withSpan_default])

theorem primary_blind (blind : BlindTo nested nested) (fuel : Nat) :
    BlindTo (primary nested fuel) (primary nested fuel) := by
  intro tokens
  cases tokens with
  | nil => exact Blind.unexpected "expression" []
  | cons token rest =>
      rcases token with ⟨item, span⟩
      cases item with
      | int value => rfl
      | float value => rfl
      | string value => rfl
      | identifier name => exact variableOrReference_blind blind fuel (⟨_, span⟩ :: rest)
      | symbol mark =>
          cases mark with
          | openBracket => exact arrayFrom_blind blind fuel span rest
          | openParen => exact parenthesizedFrom_blind blind span rest
          | _ => rfl
      | keyword word =>
          simp only [TokenStream.bare, List.map_cons, Located.bare, primary]
          cases builtin? word with
          | none => rfl
          | some builtin => exact callFrom_blind blind fuel builtin span rest

theorem span_bare (expr : Expr) : expr.bare.span = default := by
  cases expr <;> rfl

theorem quotes_blind (fuel : Nat) (operand : Expr) :
    BlindTo (quotes fuel operand) (quotes fuel operand.bare) := by
  induction fuel generalizing operand with
  | zero => exact .pure rfl
  | succ fuel ih =>
      refine .bindAccept? (fun quote => ?_) (.pure rfl)
      dsimp only
      rw [span_bare, Span.merge_self]
      exact ih (.unary (operand.span.merge quote) .transpose operand)

theorem quoted_blind (blind : BlindTo nested nested) (fuel : Nat) :
    BlindTo (quoted nested fuel) (quoted nested fuel) :=
  Blind.bind (primary_blind blind fuel) fun operand => quotes_blind fuel operand

theorem signed_blind (blind : BlindTo nested nested) (bound fuel : Nat) :
    BlindTo (signed nested bound fuel) (signed nested bound fuel) := by
  induction fuel with
  | zero => exact quoted_blind blind bound
  | succ fuel ih =>
      refine .bindAccept? (fun minus => ?_) (quoted_blind blind bound)
      refine Blind.bind ih fun operand => ?_
      exact .pure (by simp [bare, span_bare])

theorem chainFrom_blind (operator? : Symbol → Option BinaryOp) {operand : Reader Expr}
    (blind : BlindTo operand operand) (fuel : Nat) (left : Expr) :
    BlindTo (chainFrom operator? operand fuel left)
      (chainFrom operator? operand fuel left.bare) := by
  induction fuel generalizing left with
  | zero => exact .pure rfl
  | succ fuel ih =>
      refine .bindSymbol? (fun op => ?_) (.pure rfl)
      refine Blind.bind blind fun right => ?_
      rw [span_bare, span_bare, Span.merge_self]
      exact ih (.binary (left.span.merge right.span) left op right)

theorem chain_blind (operator? : Symbol → Option BinaryOp) {operand : Reader Expr}
    (blind : BlindTo operand operand) (fuel : Nat) :
    BlindTo (chain operator? operand fuel) (chain operator? operand fuel) :=
  Blind.bind blind fun left => chainFrom_blind operator? blind fuel left

theorem arithmetic_blind (blind : BlindTo nested nested) (fuel : Nat) :
    BlindTo (arithmetic nested fuel) (arithmetic nested fuel) := by
  apply chain_blind
  apply chain_blind
  apply chain_blind
  apply chain_blind
  exact signed_blind blind fuel fuel

theorem comparison_blind (blind : BlindTo nested nested) (fuel : Nat) :
    BlindTo (comparison nested fuel) (comparison nested fuel) := by
  refine Blind.bind (arithmetic_blind blind fuel) fun left => ?_
  refine .bindSymbol? (fun op => ?_) (.pure rfl)
  refine Blind.bind (arithmetic_blind blind fuel) fun right => ?_
  exact .pure (by simp [bare, span_bare])

/-- The reader of expressions takes no notice of spans. -/
theorem reader_blind (fuel : Nat) : BlindTo (reader fuel) (reader fuel) := by
  induction fuel with
  | zero => exact .unexpected _
  | succ fuel ih => exact comparison_blind ih fuel

end Expr

/-! ## Checking -/

/-- The same diagnostic without its span. -/
def Diagnostic.bare (diagnostic : Diagnostic) : Diagnostic :=
  { diagnostic with span := default }

namespace Checked

variable {α β : Type}

/-- The same result, and the diagnostics without their spans. -/
def bare (checked : Checked α) : Checked α :=
  ⟨checked.result, checked.diagnostics.map Diagnostic.bare⟩

@[simp]
theorem bare_pure (value : α) : (pure value : Checked α).bare = pure value := rfl

@[simp]
theorem bare_bind (first : Checked α) (next : α → Checked β) :
    (first >>= next).bare = first.bare >>= fun value => (next value).bare := by
  show Checked.mk _ _ = Checked.mk _ _
  rw [diagnostics_bind, List.map_append]
  rfl

@[simp]
theorem bare_complain (complaint : Complaint) (span : Span) :
    (complain complaint span).bare = complain complaint default := rfl

@[simp]
theorem bare_refuse (complaint : Complaint) (span : Span) :
    (refuse complaint span).bare = refuse complaint default := rfl

theorem bare_ite {condition : Prop} [Decidable condition] (first second : Checked α) :
    (if condition then first else second).bare = if condition then first.bare else second.bare :=
  apply_ite bare condition first second

end Checked

namespace Expr

open Checked

variable {chain : ScopeChain}

theorem checkVariable_bare (name : String) (span : Span) :
    checkVariable chain name default = (checkVariable chain name span).bare := by
  unfold checkVariable
  split <;> rfl

theorem outOfBounds_bare (coordinates : List Expr) (shape : Shape) :
    outOfBounds (bareAll coordinates) shape =
      (outOfBounds coordinates shape).map Diagnostic.bare := by
  induction coordinates generalizing shape with
  | nil => cases shape <;> rfl
  | cons head tail ih =>
      cases shape with
      | nil => cases head <;> rfl
      | cons size shape =>
          cases head with
          | int span index =>
              simp only [bareAll, bare, outOfBounds, ih]
              split <;> rfl
          | _ => exact ih shape

theorem checkSelection_bare (shape : Shape) (coordinates : List Expr) :
    checkSelection shape (bareAll coordinates) = (checkSelection shape coordinates).bare := by
  unfold checkSelection
  rw [outOfBounds_bare, bareAll_eq_map, List.length_map]
  cases outOfBounds coordinates shape <;> rfl

theorem sizeOfArgument_bare (argument : Expr) :
    sizeOfArgument argument.bare = sizeOfArgument argument := by
  cases argument <;> rfl

theorem checkConstructor_bare (span : Span) (builtin : Builtin) (arguments : List Expr) :
    checkConstructor default builtin (bareAll arguments) =
      (checkConstructor span builtin arguments).bare := by
  have sizes : (bareAll arguments).map sizeOfArgument = arguments.map sizeOfArgument := by
    rw [bareAll_eq_map, List.map_map]
    exact List.map_congr_left fun argument _ => sizeOfArgument_bare argument
  unfold checkConstructor
  rw [sizes]
  split <;> rfl

theorem checkBinary_bare (span : Span) (op : BinaryOp) (left right : Descriptor) :
    checkBinary default op left right = (checkBinary span op left right).bare := by
  unfold checkBinary
  split
  · rfl
  · split
    · rfl
    · split <;> rfl

theorem checkComparison_bare (span : Span) (op : Comparison) (left right : Descriptor) :
    checkComparison default op left right = (checkComparison span op left right).bare := by
  unfold checkComparison
  split
  · rfl
  · split <;> rfl

theorem checkUnary_bare (span : Span) (op : UnaryOp) (operand : Descriptor) :
    checkUnary default op operand = (checkUnary span op operand).bare := by
  unfold checkUnary
  split
  · rfl
  · split
    · rfl
    · cases op <;> rfl

theorem cells_bare (row : Row) : row.bare.cells = bareAll row.cells := by
  cases row with
  | mk span cells => rfl

theorem checkRows_bare (span : Span) (rows : List Row) :
    checkRows default (Row.bareAll rows) = (checkRows span rows).bare := by
  have lengths (row : Row) : row.bare.cells.length = row.cells.length := by
    rw [cells_bare, bareAll_eq_map, List.length_map]
  simp only [checkRows, Row.bareAll_eq_map, List.head?_map, Option.map_map, List.all_map,
    List.length_map, Function.comp_def, lengths]
  split <;> rfl

theorem checkAll_bare {exprs : List Expr}
    (each : ∀ expr ∈ exprs, expr.bare.check chain = (expr.check chain).bare) :
    checkAll chain (bareAll exprs) = (checkAll chain exprs).bare := by
  induction exprs with
  | nil => rfl
  | cons head tail ih =>
      rw [List.forall_mem_cons] at each
      rw [bareAll, checkAll, checkAll, bare_bind, each.1, ih each.2]

theorem rowCheckAll_bare {rows : List Row}
    (each : ∀ row ∈ rows, ∀ cell ∈ row.cells, cell.bare.check chain = (cell.check chain).bare) :
    Row.checkAll chain (Row.bareAll rows) = (Row.checkAll chain rows).bare := by
  induction rows with
  | nil => rfl
  | cons head tail ih =>
      cases head with
      | mk span cells =>
          rw [List.forall_mem_cons] at each
          have here : checkAll chain (bareAll cells) = (checkAll chain cells).bare :=
            checkAll_bare each.1
          rw [Row.bareAll, Row.checkAll, Row.checkAll, bare_bind, here, ih each.2]

theorem checkCoordinates_bare {coordinates : List Expr}
    (each : ∀ coordinate ∈ coordinates,
      coordinate.bare.check chain = (coordinate.check chain).bare) :
    checkCoordinates chain (bareAll coordinates) = (checkCoordinates chain coordinates).bare := by
  induction coordinates with
  | nil => rfl
  | cons head tail ih =>
      rw [List.forall_mem_cons] at each
      rw [bareAll, checkCoordinates, checkCoordinates, each.1, ih each.2]
      simp only [bare_bind, bare_ite, bare_complain, bare_pure, span_bare]

theorem checkSizes_bare {arguments : List Expr}
    (each : ∀ argument ∈ arguments, argument.bare.check chain = (argument.check chain).bare) :
    checkSizes chain (bareAll arguments) = (checkSizes chain arguments).bare := by
  induction arguments with
  | nil => rfl
  | cons head tail ih =>
      rw [List.forall_mem_cons] at each
      rw [bareAll, checkSizes, checkSizes, each.1, ih each.2]
      simp only [bare_bind, bare_ite, bare_complain, bare_pure, span_bare]

/-- The check of a bare expression finds what the check of the expression does. -/
theorem check_bare (expr : Expr) : expr.bare.check chain = (expr.check chain).bare := by
  induction expr with
  | int => rfl
  | float => rfl
  | string => rfl
  | var span name => exact checkVariable_bare name span
  | vector span elements each =>
      rw [bare, check, check, checkAll_bare each, bareAll_eq_map, List.length_map, bare_bind]
      rfl
  | matrix span rows each =>
      rw [bare, check, check, rowCheckAll_bare each, checkRows_bare span, bare_bind]
  | reference span name coordinates each =>
      have count : (bareAll coordinates).length = coordinates.length := by
        rw [bareAll_eq_map, List.length_map]
      rw [bare, check, check, checkVariable_bare name.item name.span, count,
        checkCoordinates_bare each]
      simp only [bare_bind, bare_ite, bare_refuse, bare_pure, checkSelection_bare]
  | call span builtin arguments each =>
      rw [bare, check, check, checkSizes_bare each, checkConstructor_bare span]
      simp only [bare_bind, bare_ite, bare_pure]
  | binary span left op right leftSame rightSame =>
      rw [bare, check, check, leftSame, rightSame]
      simp only [bare_bind, checkBinary_bare span]
  | compare span left op right leftSame rightSame =>
      rw [bare, check, check, leftSame, rightSame]
      simp only [bare_bind, checkComparison_bare span]
  | unary span op operand same =>
      rw [bare, check, check, same]
      simp only [bare_bind, checkUnary_bare span]

end Expr

/-! ## Evaluation -/

namespace Expr

variable {memory : Memory}

theorem evalAll_bare {exprs : List Expr}
    (each : ∀ expr ∈ exprs, expr.bare.eval memory = expr.eval memory) :
    evalAll memory (bareAll exprs) = evalAll memory exprs := by
  induction exprs with
  | nil => rfl
  | cons head tail ih =>
      rw [List.forall_mem_cons] at each
      rw [bareAll, evalAll, evalAll, each.1, ih each.2]

theorem evalInts_bare {exprs : List Expr}
    (each : ∀ expr ∈ exprs, expr.bare.eval memory = expr.eval memory) :
    evalInts memory (bareAll exprs) = evalInts memory exprs := by
  induction exprs with
  | nil => rfl
  | cons head tail ih =>
      rw [List.forall_mem_cons] at each
      rw [bareAll, evalInts, evalInts, each.1, ih each.2]

theorem rowEvalAll_bare {rows : List Row}
    (each : ∀ row ∈ rows, ∀ cell ∈ row.cells, cell.bare.eval memory = cell.eval memory) :
    Row.evalAll memory (Row.bareAll rows) = Row.evalAll memory rows := by
  induction rows with
  | nil => rfl
  | cons head tail ih =>
      cases head with
      | mk span cells =>
          rw [List.forall_mem_cons] at each
          have here : evalAll memory (bareAll cells) = evalAll memory cells := evalAll_bare each.1
          rw [Row.bareAll, Row.evalAll, Row.evalAll, here, ih each.2]

/-- A bare expression has the same value or the same fault. -/
theorem eval_bare (expr : Expr) : expr.bare.eval memory = expr.eval memory := by
  induction expr with
  | int => rfl
  | float => rfl
  | string => rfl
  | var => rfl
  | vector span elements each => rw [bare, eval, eval, evalAll_bare each]
  | matrix span rows each => rw [bare, eval, eval, rowEvalAll_bare each]
  | reference span name coordinates each => rw [bare, eval, eval, evalInts_bare each]
  | call span builtin arguments each => rw [bare, eval, eval, evalInts_bare each]
  | binary span left op right leftSame rightSame =>
      rw [bare, eval, eval, leftSame, rightSame]
  | compare span left op right leftSame rightSame =>
      rw [bare, eval, eval, leftSame, rightSame]
  | unary span op operand same => rw [bare, eval, eval, same]

theorem place_bare (target : Expr) : target.bare.place memory = target.place memory := by
  cases target with
  | reference span name coordinates =>
      rw [bare, place, place, evalInts_bare fun coordinate _ => coordinate.eval_bare]
  | _ => rfl

end Expr

end MatrixScript
