import MatrixScript.Proofs.Checker
import MatrixScript.Proofs.Stmt.Execution

/-!
# Jumps outside loops

A jump belongs to a loop if some statement around it is one.  `Stmt.placed` lists every
node of a statement with the statements around it, and `Placed.complaint?` is what there
is to say of a node: a jump without a loop around it is stray.

The checker counts loops instead.  Its count is zero just where no loop is around, on
every way through a program, so it complains of the stray jumps and of no others.

In a run a jump goes up to the next loop around it.  A program without stray jumps
therefore ends in one of the ways that `Program.Concludes` lists.
-/

namespace MatrixScript

/-! ## Nodes and what is around them -/

/-- A node of a program, and the statements around it from the innermost out. -/
structure Placed where
  around : List Stmt
  node : Stmt

mutual

/-- The nodes of a statement that has some statements around it. -/
def Stmt.placed (around : List Stmt) : Stmt → List Placed
  | .block span body =>
      ⟨around, .block span body⟩ :: Stmt.placedOfAll (.block span body :: around) body
  | .jump span kind => [⟨around, .jump span kind⟩]
  | .print span arguments => [⟨around, .print span arguments⟩]
  | .return span value => [⟨around, .return span value⟩]
  | .assign span target op value => [⟨around, .assign span target op value⟩]
  | .branch span condition thenBranch none =>
      ⟨around, .branch span condition thenBranch none⟩ ::
        thenBranch.placed (.branch span condition thenBranch none :: around)
  | .branch span condition thenBranch (some elseBranch) =>
      ⟨around, .branch span condition thenBranch (some elseBranch)⟩ ::
        (thenBranch.placed (.branch span condition thenBranch (some elseBranch) :: around) ++
          elseBranch.placed (.branch span condition thenBranch (some elseBranch) :: around))
  | .whileLoop span condition body =>
      ⟨around, .whileLoop span condition body⟩ ::
        body.placed (.whileLoop span condition body :: around)
  | .forLoop span counter first last body =>
      ⟨around, .forLoop span counter first last body⟩ ::
        body.placed (.forLoop span counter first last body :: around)

/-- The nodes of several statements with the same statements around them. -/
def Stmt.placedOfAll (around : List Stmt) : List Stmt → List Placed
  | [] => []
  | head :: tail => head.placed around ++ Stmt.placedOfAll around tail

end

/-- Every node of a program. -/
def Program.placed (program : Program) : List Placed :=
  Stmt.placedOfAll [] program.body

/-- The statement is a loop. -/
def Stmt.isLoop : Stmt → Bool
  | .whileLoop _ _ _ | .forLoop _ _ _ _ _ => true
  | _ => false

/-- The complaint about a node that is a jump with no loop around it. -/
def Placed.complaint? (placed : Placed) : Option Diagnostic :=
  match placed.node with
  | .jump span kind =>
      if placed.around.any Stmt.isLoop then none
      else some ⟨.jumpOutsideLoop kind, span, none⟩
  | _ => none

/-- The complaints about the stray jumps of a program, in the order of the text. -/
def Program.strayJumps (program : Program) : List Diagnostic :=
  program.placed.filterMap Placed.complaint?

namespace Stmt

theorem placedOfAll_nodes {statements : List Stmt}
    (each : ∀ statement ∈ statements, ∀ around,
      (statement.placed around).map Placed.node = statement.nodes)
    (around : List Stmt) :
    (placedOfAll around statements).map Placed.node = nodesOfAll statements := by
  induction statements with
  | nil => rfl
  | cons head tail ih =>
      rw [List.forall_mem_cons] at each
      rw [placedOfAll, List.map_append, each.1, ih each.2, nodesOfAll]

/-- Every node is listed once. -/
theorem placed_nodes (statement : Stmt) (around : List Stmt) :
    (statement.placed around).map Placed.node = statement.nodes := by
  induction statement generalizing around with
  | block span body each => rw [placed, List.map_cons, placedOfAll_nodes each, nodes]
  | jump => rfl
  | print => rfl
  | «return» => rfl
  | assign => rfl
  | branch span condition thenBranch thenNodes =>
      rw [placed, List.map_cons, thenNodes, nodes]
  | alternative span condition thenBranch elseBranch thenNodes elseNodes =>
      rw [placed, List.map_cons, List.map_append, thenNodes, elseNodes, nodes]
  | whileLoop span condition body bodyNodes => rw [placed, List.map_cons, bodyNodes, nodes]
  | forLoop span counter first last body bodyNodes =>
      rw [placed, List.map_cons, bodyNodes, nodes]

theorem placed_subset_placedOfAll {statement : Stmt} {statements : List Stmt}
    (member : statement ∈ statements) (around : List Stmt) :
    statement.placed around ⊆ placedOfAll around statements := by
  induction statements with
  | nil => cases member
  | cons head tail ih =>
      rw [placedOfAll]
      rcases List.mem_cons.mp member with rfl | later
      · exact List.subset_append_left _ _
      · exact List.subset_append_of_subset_right _ (ih later)

end Stmt

/-! ## Diagnostics about jumps -/

/-- The diagnostic is about a jump. -/
def Diagnostic.isJump (diagnostic : Diagnostic) : Bool :=
  match diagnostic.complaint with
  | .jumpOutsideLoop _ => true
  | _ => false

namespace Checked

variable {α β : Type}

/-- No diagnostic is about a jump. -/
def Jumpless (checked : Checked α) : Prop :=
  checked.diagnostics.filter Diagnostic.isJump = []

namespace Jumpless

theorem pure (value : α) : (Pure.pure value : Checked α).Jumpless := rfl

theorem bind {first : Checked α} {next : α → Checked β} (before : first.Jumpless)
    (after : ∀ value, (next value).Jumpless) : (first >>= next).Jumpless := by
  have behind := after first.result
  rw [Jumpless] at before behind ⊢
  rw [diagnostics_bind, List.filter_append, before, behind]
  rfl

end Jumpless

end Checked

namespace Expr

open Checked

variable {chain : ScopeChain}

theorem checkVariable_jumpless (name : String) (span : Span) :
    (checkVariable chain name span).Jumpless := by
  unfold checkVariable
  split
  · exact .pure _
  · rfl

theorem outOfBounds_jumpless (coordinates : List Expr) (shape : Shape) :
    (outOfBounds coordinates shape).filter Diagnostic.isJump = [] := by
  fun_induction outOfBounds coordinates shape with
  | case1 span index coordinates size shape outside ih => exact ih
  | case2 span index coordinates size shape inside ih => exact ih
  | case3 coordinate coordinates size shape other ih => exact ih
  | case4 => rfl

theorem checkSelection_jumpless (shape : Shape) (coordinates : List Expr) :
    (checkSelection shape coordinates).Jumpless := by
  have bounds := outOfBounds_jumpless coordinates shape
  unfold checkSelection
  split
  · exact .pure _
  · exact bounds

theorem checkConstructor_jumpless (span : Span) (builtin : Builtin) (arguments : List Expr) :
    (checkConstructor span builtin arguments).Jumpless := by
  unfold checkConstructor
  split
  · exact .pure _
  · exact .pure _
  · rfl

theorem checkBinary_jumpless (span : Span) (op : BinaryOp) (left right : Descriptor) :
    (checkBinary span op left right).Jumpless := by
  unfold checkBinary
  split
  · exact .pure _
  · split
    · rfl
    · split
      · rfl
      · exact .pure _

theorem checkComparison_jumpless (span : Span) (op : Comparison) (left right : Descriptor) :
    (checkComparison span op left right).Jumpless := by
  unfold checkComparison
  split
  · exact .pure _
  · split
    · rfl
    · exact .pure _

theorem checkUnary_jumpless (span : Span) (op : UnaryOp) (operand : Descriptor) :
    (checkUnary span op operand).Jumpless := by
  unfold checkUnary
  split
  · exact .pure _
  · split
    · rfl
    · cases op with
      | negate => exact .pure _
      | transpose => exact .pure _

theorem checkRows_jumpless (span : Span) (rows : List Row) :
    (checkRows span rows).Jumpless := by
  unfold checkRows
  dsimp only
  split
  · exact .pure _
  · rfl

theorem checkAll_jumpless {exprs : List Expr}
    (each : ∀ expr ∈ exprs, (expr.check chain).Jumpless) : (checkAll chain exprs).Jumpless := by
  induction exprs with
  | nil => exact .pure _
  | cons head tail ih =>
      rw [List.forall_mem_cons] at each
      rw [checkAll]
      exact each.1.bind fun _ => ih each.2

theorem rowCheckAll_jumpless {rows : List Row}
    (each : ∀ row ∈ rows, ∀ cell ∈ row.cells, (cell.check chain).Jumpless) :
    (Row.checkAll chain rows).Jumpless := by
  induction rows with
  | nil => exact .pure _
  | cons head tail ih =>
      cases head with
      | mk span cells =>
          rw [List.forall_mem_cons] at each
          rw [Row.checkAll]
          exact (checkAll_jumpless each.1).bind fun _ => ih each.2

theorem checkCoordinates_jumpless {coordinates : List Expr}
    (each : ∀ coordinate ∈ coordinates, (coordinate.check chain).Jumpless) :
    (checkCoordinates chain coordinates).Jumpless := by
  induction coordinates with
  | nil => exact .pure _
  | cons head tail ih =>
      rw [List.forall_mem_cons] at each
      have rest := ih each.2
      rw [checkCoordinates]
      refine each.1.bind fun descriptor => ?_
      split
      · exact rest.bind fun _ => .pure _
      · split
        · exact rest
        · have complaint : (complain (.coordinateType descriptor.ty) head.span).Jumpless := rfl
          exact complaint.bind fun _ => rest.bind fun _ => .pure _

theorem checkSizes_jumpless {arguments : List Expr}
    (each : ∀ argument ∈ arguments, (argument.check chain).Jumpless) :
    (checkSizes chain arguments).Jumpless := by
  induction arguments with
  | nil => exact .pure _
  | cons head tail ih =>
      rw [List.forall_mem_cons] at each
      rw [checkSizes]
      refine each.1.bind fun descriptor => ?_
      split
      · exact .pure _
      · split
        · exact ih each.2
        · have complaint : (complain (.sizeType descriptor.ty) head.span).Jumpless := rfl
          exact complaint.bind fun _ => .pure _

/-- The check of an expression never complains of a jump. -/
theorem check_jumpless (expr : Expr) : (expr.check chain).Jumpless := by
  induction expr with
  | int => exact .pure _
  | float => exact .pure _
  | string => exact .pure _
  | var span name => exact checkVariable_jumpless name span
  | vector span elements each =>
      rw [check]
      exact (checkAll_jumpless each).bind fun _ => .pure _
  | matrix span rows each =>
      rw [check]
      exact (rowCheckAll_jumpless each).bind fun _ => checkRows_jumpless span rows
  | reference span name coordinates each =>
      rw [check]
      refine (checkVariable_jumpless name.item name.span).bind fun container => ?_
      split
      · exact .pure _
      · split
        · rfl
        · refine (checkCoordinates_jumpless each).bind fun sound => ?_
          split
          · exact checkSelection_jumpless container.shape coordinates
          · exact .pure _
  | call span builtin arguments each =>
      rw [check]
      refine (checkSizes_jumpless each).bind fun sound => ?_
      split
      · exact checkConstructor_jumpless span builtin arguments
      · exact .pure _
  | binary span left op right leftJumpless rightJumpless =>
      rw [check]
      exact leftJumpless.bind fun first => rightJumpless.bind fun second =>
        checkBinary_jumpless span op first second
  | compare span left op right leftJumpless rightJumpless =>
      rw [check]
      exact leftJumpless.bind fun first => rightJumpless.bind fun second =>
        checkComparison_jumpless span op first second
  | unary span op operand jumpless =>
      rw [check]
      exact jumpless.bind fun descriptor => checkUnary_jumpless span op descriptor

end Expr

namespace Stmt

open Checked

variable {chain : ScopeChain}

theorem checkSlot_jumpless (span : Span) (slot value : Descriptor) :
    (checkSlot span slot value).Jumpless := by
  unfold checkSlot
  split
  · split
    · rfl
    · split
      · rfl
      · exact .pure _
  · split
    · exact .pure _
    · rfl
  · exact .pure _

theorem checkPlain_jumpless (span : Span) (target value : Expr) :
    (checkPlain chain span target value).Jumpless := by
  unfold checkPlain
  split
  · exact value.check_jumpless.bind fun _ => .pure _
  · refine (Expr.check_jumpless _).bind fun slot => value.check_jumpless.bind fun new => ?_
    split
    · exact .pure _
    · exact (checkSlot_jumpless span slot new).bind fun _ => .pure _
  · have complaint : (complain .invalidTarget target.span).Jumpless := rfl
    exact value.check_jumpless.bind fun _ => complaint.bind fun _ => .pure _

theorem checkStore_jumpless (span : Span) (target : Expr) (old new : Descriptor) :
    (checkStore chain span target old new).Jumpless := by
  unfold checkStore
  split
  · exact .pure _
  · exact (checkSlot_jumpless span old new).bind fun _ => .pure _
  · rfl

theorem checkCompound_jumpless (span : Span) (target : Expr) (arith : Arith) (value : Expr) :
    (checkCompound chain span target arith value).Jumpless := by
  refine target.check_jumpless.bind fun old => value.check_jumpless.bind fun new => ?_
  split
  · exact .pure _
  · split
    · rfl
    · split
      · rfl
      · exact checkStore_jumpless span target old _

theorem checkAssign_jumpless (span : Span) (target : Expr) (op : AssignOp) (value : Expr) :
    (checkAssign chain span target op value).Jumpless := by
  cases op with
  | plain => exact checkPlain_jumpless span target value
  | compound arith => exact checkCompound_jumpless span target arith value

theorem checkBound_jumpless (bound : Expr) : (checkBound chain bound).Jumpless := by
  refine bound.check_jumpless.bind fun descriptor => ?_
  split
  · exact .pure _
  · rfl

end Stmt

/-! ## The count of loops -/

namespace Checker

/-- The diagnostics about jumps, in order. -/
def jumps (checker : Checker) : List Diagnostic :=
  checker.diagnostics.filter Diagnostic.isJump

theorem note_jumps {α : Type} {checked : Checked α} (jumpless : checked.Jumpless)
    (checker : Checker) : (checker.note checked).jumps = checker.jumps := by
  rw [Checked.Jumpless] at jumpless
  rw [jumps, note, List.filter_append, jumpless, List.append_nil, jumps]

/-- The count of loops is zero just if no statement around is a loop. -/
def Counts (checker : Checker) (around : List Stmt) : Prop :=
  checker.loopDepth = 0 ↔ around.any Stmt.isLoop = false

theorem Counts.outside {checker : Checker} {around : List Stmt} {outer : Stmt}
    (counts : checker.Counts around) (notLoop : outer.isLoop = false) :
    checker.Counts (outer :: around) := by
  rw [Counts, List.any_cons, notLoop, Bool.false_or]
  exact counts

theorem Counts.inside {checker : Checker} {around : List Stmt} {loop : Stmt} (depth : Nat)
    (deeper : checker.loopDepth = depth + 1) (isLoop : loop.isLoop = true) :
    checker.Counts (loop :: around) := by
  rw [Counts, List.any_cons, isLoop, Bool.true_or, deeper]
  exact iff_of_false (Nat.succ_ne_zero depth) Bool.noConfusion

end Checker

namespace Stmt

/-- The complaints about the stray jumps of a statement that has some statements around it. -/
def strayJumps (around : List Stmt) (statement : Stmt) : List Diagnostic :=
  (statement.placed around).filterMap Placed.complaint?

/-- The checker complains of the stray jumps of the statement, and of no others. -/
def Reports (statement : Stmt) : Prop :=
  ∀ (checker : Checker) (around : List Stmt), checker.Counts around →
    (statement.check checker).jumps = checker.jumps ++ statement.strayJumps around

theorem checkAll_reports {statements : List Stmt}
    (each : ∀ statement ∈ statements, statement.Reports) (checker : Checker)
    (around : List Stmt) (counts : checker.Counts around) :
    (checkAll statements checker).jumps =
      checker.jumps ++ (placedOfAll around statements).filterMap Placed.complaint? := by
  induction statements generalizing checker with
  | nil => exact (List.append_nil _).symm
  | cons head tail ih =>
      rw [List.forall_mem_cons] at each
      have tailCounts : (head.check checker).Counts around := by
        rw [Checker.Counts, (head.check_extends checker).loopDepth]
        exact counts
      rw [checkAll, ih each.2 _ tailCounts, each.1 checker around counts, placedOfAll,
        List.filterMap_append, List.append_assoc]
      rfl

theorem jump_reports (span : Span) (kind : Jump) : (Stmt.jump span kind).Reports := by
  intro checker around counts
  by_cases outside : checker.loopDepth = 0
  · have stray : (Stmt.jump span kind).strayJumps around =
        [⟨.jumpOutsideLoop kind, span, none⟩] := by
      simp [strayJumps, placed, Placed.complaint?, counts.mp outside]
    rw [check, if_pos outside, stray]
    exact List.filter_append _ _
  · have looped : around.any isLoop = true := by
      rw [← Bool.not_eq_false]
      exact fun none => outside (counts.mpr none)
    have nothing : (Stmt.jump span kind).strayJumps around = [] := by
      simp [strayJumps, placed, Placed.complaint?, looped]
    rw [check, if_neg outside, nothing, List.append_nil]

/-- The checker complains of the stray jumps of every statement, and of no others. -/
theorem check_reports (statement : Stmt) : statement.Reports := by
  induction statement with
  | block span body each =>
      intro checker around counts
      have entered : Checker.Counts { checker with chain := checker.chain.enter }
          (.block span body :: around) := Checker.Counts.outside counts rfl
      exact checkAll_reports each { checker with chain := checker.chain.enter } _ entered
  | jump span kind => exact jump_reports span kind
  | print span arguments =>
      intro checker around counts
      rw [check, Checker.note_jumps (Expr.checkAll_jumpless fun expr _ => expr.check_jumpless)]
      exact (List.append_nil _).symm
  | «return» span value =>
      intro checker around counts
      cases value with
      | none => exact (List.append_nil _).symm
      | some expr =>
          rw [check, Checker.note_jumps expr.check_jumpless]
          exact (List.append_nil _).symm
  | assign span target op value =>
      intro checker around counts
      have jumpless : (checkAssign checker.chain span target op value).Jumpless :=
        checkAssign_jumpless span target op value
      exact (checker.note_jumps jumpless).trans (List.append_nil _).symm
  | branch span condition thenBranch thenReports =>
      intro checker around counts
      have inside := thenReports (checker.note (condition.check checker.chain))
        (.branch span condition thenBranch none :: around) (counts.outside rfl)
      rw [Checker.note_jumps condition.check_jumpless] at inside
      exact inside
  | alternative span condition thenBranch elseBranch thenReports elseReports =>
      intro checker around counts
      let tested := checker.note (condition.check checker.chain)
      let inner := .branch span condition thenBranch (some elseBranch) :: around
      have thenCounts : tested.Counts inner := counts.outside rfl
      have elseCounts : (thenBranch.check tested).Counts inner := by
        rw [Checker.Counts, (thenBranch.check_extends tested).loopDepth]
        exact thenCounts
      rw [check, elseReports _ inner elseCounts, thenReports tested inner thenCounts,
        Checker.note_jumps condition.check_jumpless, List.append_assoc, strayJumps, strayJumps,
        ← List.filterMap_append]
      rfl
  | whileLoop span condition body bodyReports =>
      intro checker around counts
      let tested := checker.note (condition.check checker.chain)
      have inside := bodyReports { tested with loopDepth := tested.loopDepth + 1 }
        (.whileLoop span condition body :: around) (.inside tested.loopDepth rfl rfl)
      have noted : tested.jumps = checker.jumps := checker.note_jumps condition.check_jumpless
      exact inside.trans (congrArg (· ++ _) noted)
  | forLoop span counter first last body bodyReports =>
      intro checker around counts
      let bounded :=
        (checker.note (checkBound checker.chain first)).note (checkBound checker.chain last)
      have inside := bodyReports
        { bounded with
          loopDepth := bounded.loopDepth + 1
          chain := bounded.chain.enter.put counter.item
            ((Descriptor.scalar .int).named counter.item) }
        (.forLoop span counter first last body :: around) (.inside bounded.loopDepth rfl rfl)
      have noted : bounded.jumps = checker.jumps := by
        rw [Checker.note_jumps (checkBound_jumpless last),
          Checker.note_jumps (checkBound_jumpless first)]
      exact inside.trans (congrArg (· ++ _) noted)

end Stmt

/-! ## Jumps in a run -/

namespace Ending

/-- The statement ended with a jump that no loop in it has taken up. -/
def Jumps (ending : Ending) : Prop :=
  ending.flow = .ok .«break» ∨ ending.flow = .ok .«continue»

theorem not_jumps_failed (fault : Fault) (line : Nat) (machine : Machine) :
    ¬ (failed fault line machine).Jumps := by
  rintro (impossible | impossible) <;> cases impossible

theorem not_jumps_normal (machine : Machine) : ¬ (done .normal machine).Jumps := by
  rintro (impossible | impossible) <;> cases impossible

end Ending

/-- A loop takes up every jump of its body. -/
theorem Loop.runAt_not_jumps {line : Nat} {test : Machine → Except Fault Bool}
    {body : Machine → Option Ending} {advance : Machine → Except Fault Machine} {allowance : Nat}
    {machine : Machine} {ending : Ending}
    (runs : runAt line test body advance allowance machine = some ending) : ¬ ending.Jumps := by
  induction allowance generalizing machine with
  | zero => cases runs
  | succ allowance ih =>
      rw [runAt] at runs
      split at runs
      · cases runs
        exact Ending.not_jumps_failed _ _ _
      · cases runs
        exact Ending.not_jumps_normal _
      · split at runs
        · cases runs
        · cases runs
          rintro (impossible | impossible) <;> cases impossible
        · cases runs
          exact Ending.not_jumps_normal _
        · cases runs
          rintro (impossible | impossible) <;> cases impossible
        · split at runs
          · cases runs
            exact Ending.not_jumps_failed _ _ _
          · exact ih runs

namespace Stmt

variable {allowance : Nat}

/-- What runs in a frame of its own ends with a jump only if it does so inside. -/
theorem inFrame_not_jumps {body : Machine → Option Ending} {machine : Machine} {ending : Ending}
    (inside : ∀ inner, body machine.enter = some inner → ¬ inner.Jumps)
    (runs : inFrame body machine = some ending) : ¬ ending.Jumps := by
  rcases Option.map_eq_some_iff.mp runs with ⟨inner, ended, rfl⟩
  exact inside inner ended

theorem execAll_not_jumps {statements : List Stmt} {machine : Machine} {ending : Ending}
    (each : ∀ statement ∈ statements, ∀ before after,
      statement.exec allowance before = some after → ¬ after.Jumps)
    (runs : execAll allowance statements machine = some ending) : ¬ ending.Jumps := by
  rcases execAll_cases runs with ⟨after, _, rfl⟩ | stopped
  · exact Ending.not_jumps_normal after
  · rcases stopped with ⟨front, statement, back, between, rfl, _, ended, _⟩
    exact each statement (List.mem_append_right _ List.mem_cons_self) between ending ended

theorem strayJumps_of_mem {around : List Stmt} {statement : Stmt} {statements : List Stmt}
    (none : (placedOfAll around statements).filterMap Placed.complaint? = [])
    (member : statement ∈ statements) : statement.strayJumps around = [] := by
  rw [List.filterMap_eq_nil_iff] at none
  rw [strayJumps, List.filterMap_eq_nil_iff]
  intro placed found
  exact none placed (placed_subset_placedOfAll member around found)

/-- A statement that no loop is around and that has no stray jumps does not end with a jump. -/
theorem exec_not_jumps (statement : Stmt) (around : List Stmt)
    (outside : around.any isLoop = false) (none : statement.strayJumps around = [])
    (machine : Machine) (ending : Ending)
    (runs : statement.exec allowance machine = some ending) : ¬ ending.Jumps := by
  induction statement generalizing around machine ending with
  | block span body each =>
      rw [exec_eq, unwrapped] at runs
      refine inFrame_not_jumps (fun inner ended => ?_) runs
      refine execAll_not_jumps (fun statement member => ?_) ended
      exact each statement member (.block span body :: around) outside
        (strayJumps_of_mem none member)
  | jump span kind => simp [strayJumps, placed, Placed.complaint?, outside] at none
  | print span arguments =>
      rw [exec_eq, unwrapped] at runs
      split at runs
      · cases runs
        exact Ending.not_jumps_failed _ _ _
      · cases runs
        exact Ending.not_jumps_normal _
  | «return» span value =>
      rw [exec_eq, unwrapped] at runs
      split at runs
      · cases runs
        exact Ending.not_jumps_failed _ _ _
      · cases runs
        rintro (impossible | impossible) <;> cases impossible
  | assign span target op value =>
      rw [exec_eq, unwrapped] at runs
      split at runs
      · cases runs
        exact Ending.not_jumps_failed _ _ _
      · cases runs
        exact Ending.not_jumps_normal _
  | branch span condition thenBranch thenStays =>
      rw [exec_eq, unwrapped] at runs
      split at runs
      · cases runs
        exact Ending.not_jumps_failed _ _ _
      · split at runs
        · exact thenStays (.branch span condition thenBranch .none :: around) outside none
            machine ending runs
        · cases runs
          exact Ending.not_jumps_normal _
  | alternative span condition thenBranch elseBranch thenStays elseStays =>
      have both := none
      rw [strayJumps, placed, List.filterMap_cons_none rfl, List.filterMap_append,
        List.append_eq_nil_iff] at both
      rw [exec_eq, unwrapped] at runs
      split at runs
      · cases runs
        exact Ending.not_jumps_failed _ _ _
      · split at runs
        · exact thenStays (.branch span condition thenBranch (some elseBranch) :: around) outside
            both.1 machine ending runs
        · exact elseStays (.branch span condition thenBranch (some elseBranch) :: around) outside
            both.2 machine ending runs
  | whileLoop span condition body bodyStays =>
      rw [exec_eq, unwrapped] at runs
      exact Loop.runAt_not_jumps runs
  | forLoop span counter first last body bodyStays =>
      rw [exec_eq, unwrapped] at runs
      split at runs
      · cases runs
        exact Ending.not_jumps_failed _ _ _
      · refine inFrame_not_jumps (fun inner ended => ?_) runs
        exact Loop.runAt_not_jumps ended

end Stmt

/-! ## Programs -/

namespace Program

/--
The ways in which a run can end without a jump: it passes every statement, or it passes
some and the next one returns or fails.
-/
inductive Concludes (allowance : Nat) (program : Program) (machine : Machine) : Run → Prop where
  | finished {after : Machine} (passes : Stmt.Passes allowance program.body machine after) :
      Concludes allowance program machine ⟨.ok none, after⟩
  | returned {front back : List Stmt} {statement : Stmt} {between after : Machine}
      {value : Option Value} (splits : program.body = front ++ statement :: back)
      (passes : Stmt.Passes allowance front machine between)
      (returns : statement.exec allowance between = some (.done (.return value) after)) :
      Concludes allowance program machine ⟨.ok value, after⟩
  | failed {front back : List Stmt} {statement : Stmt} {between after : Machine}
      {error : RuntimeError} (splits : program.body = front ++ statement :: back)
      (passes : Stmt.Passes allowance front machine between)
      (fails : statement.exec allowance between = some ⟨.error error, after⟩) :
      Concludes allowance program machine ⟨.error error, after⟩

theorem concludes_of_not_jumps {program : Program} {allowance : Nat} {machine : Machine}
    {run : Run}
    (each : ∀ statement ∈ program.body, ∀ before after,
      statement.exec allowance before = some after → ¬ after.Jumps)
    (runs : program.run allowance machine = some run) :
    program.Concludes allowance machine run := by
  rcases Option.map_eq_some_iff.mp runs with ⟨ending, ended, rfl⟩
  rcases Stmt.execAll_cases ended with ⟨after, passes, rfl⟩ | stopped
  · exact .finished passes
  · rcases stopped with ⟨front, statement, back, between, splits, passes, stops, notNormal⟩
    have stays : ¬ ending.Jumps := by
      refine each statement ?_ between ending stops
      rw [splits]
      exact List.mem_append_right _ List.mem_cons_self
    rcases ending with ⟨error | (_ | _ | _ | value), after⟩
    · exact .failed splits passes stops
    · exact absurd rfl notNormal
    · exact absurd (.inl rfl) stays
    · exact absurd (.inr rfl) stays
    · exact .returned splits passes stops

/--
Jumps are settled before a program runs.  What the checker finds about jumps is one
complaint for each jump of the program with no loop around it, in the order of the text.
If there is none, then no statement of the program ends with a jump, whatever machine it
runs on, and the program ends by passing every statement, by a return or by an error.
-/
theorem jumps_settled {checker : Checker} (outside : checker.loopDepth = 0) (program : Program) :
    ∃ found, (checker.checkProgram program).2.diagnostics = checker.diagnostics ++ found ∧
      found.filter Diagnostic.isJump = program.strayJumps ∧
      program.placed.map Placed.node = program.nodes ∧
      (found.filter Diagnostic.isJump = [] → ∀ allowance machine,
        (∀ statement ∈ program.body, ∀ ending,
          statement.exec allowance machine = some ending → ¬ ending.Jumps) ∧
        ∀ run, program.run allowance machine = some run →
          program.Concludes allowance machine run) := by
  rcases (checker.checkProgram_extends program).diagnostics with ⟨found, longer⟩
  have counts : checker.Counts [] := iff_of_true outside rfl
  have reports : (checker.checkProgram program).2.jumps = checker.jumps ++ program.strayJumps :=
    Stmt.checkAll_reports (fun statement _ => statement.check_reports) checker [] counts
  have stray : found.filter Diagnostic.isJump = program.strayJumps := by
    rw [Checker.jumps, ← longer, List.filter_append] at reports
    exact List.append_cancel_left reports
  refine ⟨found, longer.symm, stray, ?_, ?_⟩
  · exact Stmt.placedOfAll_nodes (fun statement _ => statement.placed_nodes) []
  · intro nothing allowance machine
    have stays : ∀ statement ∈ program.body, ∀ before after,
        statement.exec allowance before = some after → ¬ after.Jumps := by
      intro statement member
      refine statement.exec_not_jumps [] rfl (Stmt.strayJumps_of_mem ?_ member)
      exact stray.symm.trans nothing
    exact ⟨fun statement member => stays statement member machine,
      fun run => concludes_of_not_jumps stays⟩

/--
The program `while (1) { if (1) break; } { if (0) continue; } for i = 0 : 2 continue; break;`,
with the spans of the two jumps that no loop is around.
-/
def mixedJumps : Program :=
  ⟨[.whileLoop default (.int default 1)
      (.block default [.branch default (.int default 1) (.jump default .«break») none]),
    .block default [.branch default (.int default 0) (.jump ⟨35, 43, 2⟩ .«continue») none],
    .forLoop default ⟨"i", default⟩ (.int default 0) (.int default 2)
      (.jump default .«continue»),
    .jump ⟨70, 75, 3⟩ .«break»]⟩

/-- The program `while (1) { if (1) break; } for i = 0 : 2 continue; return 7; x = y;`. -/
def loopedJumps : Program :=
  ⟨[.whileLoop default (.int default 1)
      (.block default [.branch default (.int default 1) (.jump default .«break») none]),
    .forLoop default ⟨"i", default⟩ (.int default 0) (.int default 2)
      (.jump default .«continue»),
    .return default (some (.int default 7)),
    .assign default (.var default "x") .plain (.var default "y")]⟩

/-- The first program has two stray jumps; the second has none, and ends with its return. -/
theorem jumps_settled_mixed :
    Checker.start.loopDepth = 0 ∧
      mixedJumps.check =
        [⟨.jumpOutsideLoop .«continue», ⟨35, 43, 2⟩, none⟩,
          ⟨.jumpOutsideLoop .«break», ⟨70, 75, 3⟩, none⟩] ∧
      mixedJumps.check.filter Diagnostic.isJump = mixedJumps.strayJumps ∧
      loopedJumps.check = [⟨.undefinedVariable "y", default, none⟩] ∧
      loopedJumps.Concludes 4 (.start .empty) ⟨.ok (some (.int 7)), .start .empty⟩ := by
  have found : mixedJumps.check =
      [⟨.jumpOutsideLoop .«continue», ⟨35, 43, 2⟩, none⟩,
        ⟨.jumpOutsideLoop .«break», ⟨70, 75, 3⟩, none⟩] := by
    decide +kernel
  have other : loopedJumps.check = [⟨.undefinedVariable "y", default, none⟩] := by
    decide +kernel
  have runs : loopedJumps.run 4 (.start .empty) =
      some ⟨.ok (some (.int 7)), .start .empty⟩ := rfl
  rcases jumps_settled (rfl : Checker.start.loopDepth = 0) mixedJumps with
    ⟨mixed, mixedIs, mixedStray, _⟩
  rcases jumps_settled (rfl : Checker.start.loopDepth = 0) loopedJumps with
    ⟨looped, loopedIs, _, _, settled⟩
  have same : mixedJumps.check = mixed := mixedIs
  have loopedSame : loopedJumps.check = looped := loopedIs
  refine ⟨rfl, found, same ▸ mixedStray, other, (settled ?_ 4 (.start .empty)).2 _ runs⟩
  rw [← loopedSame, other]
  rfl

end Program

end MatrixScript
