import MatrixScript.Proofs.Slots
import MatrixScript.Proofs.Stmt.Binding
import MatrixScript.Proofs.Stmt.Coordinates
import MatrixScript.Proofs.Stmt.Failures

/-!
# Names declared and names bound

A plain assignment declares its target when it is checked, and binds it when it is
executed.  The two come apart, since all of a program is checked before any of it runs.

On the side of the checker, the names in scope behind clean statements are those from
before and those that the statements reach: `Stmt.checkAll_visible_iff`.  On the side of
the machine, the names in the top frame are those from before and those for which a plain
assignment was completed outside blocks and for loops: `Stmt.execAll_bound_iff`.

A statement that fails for want of a name leaves a machine in which the name has no value.
-/

namespace MatrixScript

/-- A name that is in scope stays so while the scopes grow. -/
theorem ScopeChain.Grows.isSome_get? {before after : ScopeChain} (grows : before.Grows after)
    {name : String} (visible : (before.get? name).isSome) : (after.get? name).isSome := by
  rw [get?_eq, Option.isSome_or, Bool.or_eq_true] at visible ⊢
  rw [grows.outer]
  rcases visible with inside | outside
  · left
    have member : name ∈ before.inner.names := (Bindings.mem_names_iff _ _).mpr inside
    exact (Bindings.mem_names_iff _ _).mp (grows.inner member)
  · exact .inr outside

/-- A variable that has a value is changed in the frame that has it, and no frame gets a name. -/
theorem Memory.names_update {memory : Memory} {name : String}
    (bound : (memory.lookup? name).isSome) (value : Value) :
    (memory.update name value).top.names = memory.top.names := by
  rcases Option.isSome_iff_exists.mp bound with ⟨old, found⟩
  rcases replaceIn_of_found found value with ⟨changed, replaced⟩
  have names := replaceIn_names replaced
  rw [← frames_update replaced] at names
  exact (List.cons.inj names).1

/-- What is true behind a loop and not before it has become true in one of its rounds. -/
theorem Loop.exists_round {line allowance : Nat} {test : Machine → Except Fault Bool}
    {body : Machine → Option Ending} {advance : Machine → Except Fault Machine}
    (reached : Machine → Prop)
    (advanceKeeps : ∀ machine next, advance machine = .ok next → reached next → reached machine)
    {machine : Machine} {ending : Ending} (before : ¬ reached machine)
    (runs : runAt line test body advance allowance machine = some ending)
    (after : reached ending.machine) :
    ∃ current inside, Arrives test body advance allowance machine current ∧
      test current = .ok true ∧ body current = some inside ∧ ¬ reached current ∧
      reached inside.machine := by
  induction allowance generalizing machine with
  | zero => cases runs
  | succ allowance ih =>
      by_cases tested : test machine = .ok true
      · rcases runAt_round tested runs with ⟨inside, ended, rest⟩
        by_cases here : reached inside.machine
        · exact ⟨machine, inside, .first allowance machine, tested, ended, before, here⟩
        · rcases rest with last | ⟨next, goesOn, runs⟩
          · rw [last] at after
            exact absurd after here
          · have nextBefore : ¬ reached next := fun reachedNext =>
              here (advanceKeeps _ _ (advance_of_next? goesOn) reachedNext)
            rcases ih nextBefore runs with ⟨current, found, arrives, round⟩
            exact ⟨current, found, .again tested ended goesOn arrives, round⟩
      · rw [runAt] at runs
        split at runs
        · cases runs
          exact absurd after before
        · cases runs
          exact absurd after before
        · rename_i holds
          exact absurd holds tested

namespace Stmt

variable {allowance : Nat} {name : String}

/-! ## What is declared -/

/-- A clean statement declares the names that it reaches. -/
theorem Reaches.visible {statement : Stmt} (reaches : statement.Reaches name) (checker : Checker)
    (chainProper : checker.chain.Formed fun _ => True)
    (clean : (statement.check checker).diagnostics = []) :
    ((statement.check checker).chain.get? name).isSome := by
  induction reaches generalizing checker with
  | assign span targetSpan value =>
      have assignment := (checkAssign_clean chainProper (Checker.note_clean.mp clean).2).2
      generalize behind : (checkAssign checker.chain _ _ _ _).result = after at assignment
      cases assignment with
      | declare proper =>
          have same : (Stmt.check (.assign span (.var targetSpan name) .plain value)
              checker).chain = _ := behind
          rw [same, ScopeChain.get?_put, if_pos rfl]
          rfl
  | @thenBranch span condition thenBranch elseBranch _ ih =>
      cases elseBranch with
      | none => exact ih (checker.note _) chainProper clean
      | some elseBranch =>
          rw [check] at clean ⊢
          have behind := elseBranch.check_extends
            (thenBranch.check (checker.note (condition.check checker.chain)))
          exact behind.scope.isSome_get? (ih (checker.note _) chainProper (behind.clean clean))
  | @elseBranch span condition thenBranch elseBranch _ ih =>
      rw [check] at clean ⊢
      have thenClean := (elseBranch.check_extends _).clean clean
      exact ih _ (thenBranch.check_proper (checker.note _) chainProper thenClean) clean
  | body _ ih =>
      exact ih { checker.note _ with loopDepth := checker.loopDepth + 1 } chainProper clean

/-- The names in scope behind clean statements are those from before and those reached. -/
theorem checkAll_visible_iff {statements : List Stmt} {checker : Checker}
    (chainProper : checker.chain.Formed fun _ => True)
    (clean : (checkAll statements checker).diagnostics = []) :
    ((checkAll statements checker).chain.get? name).isSome ↔
      (checker.chain.get? name).isSome ∨ ∃ statement ∈ statements, statement.Reaches name := by
  induction statements generalizing checker with
  | nil => simp [checkAll]
  | cons head tail ih =>
      rw [checkAll] at clean ⊢
      have headClean : (head.check checker).diagnostics = [] :=
        (checkAll_extends (fun statement _ => statement.check_extends) _).clean clean
      have headVisible : ((head.check checker).chain.get? name).isSome ↔
          (checker.chain.get? name).isSome ∨ head.Reaches name := by
        constructor
        · intro visible
          refine Classical.or_iff_not_imp_right.mpr fun unreached => ?_
          exact head.check_visible checker unreached chainProper headClean visible
        · rintro (earlier | reaches)
          · exact (head.check_extends checker).scope.isSome_get? earlier
          · exact reaches.visible checker chainProper headClean
      rw [ih (head.check_proper checker chainProper headClean) clean, headVisible,
        List.exists_mem_cons_iff, or_assoc]

/-! ## What is bound -/

/--
A run of the statement completes a plain assignment to the variable, outside blocks and for
loops.
-/
inductive Completes (name : String) (allowance : Nat) : Stmt → Machine → Prop where
  | assign {span targetSpan : Span} {value : Expr} {machine : Machine} {after : Memory}
      (done : assigned machine.memory (.var targetSpan name) .plain value = .ok after) :
      Completes name allowance (.assign span (.var targetSpan name) .plain value) machine
  | inside {outer inner : Stmt} {machine between : Machine} (unscoped : ¬ outer.OpensScope)
      (enters : outer.Enters allowance machine inner between)
      (completes : Completes name allowance inner between) :
      Completes name allowance outer machine

theorem Completes.reaches {statement : Stmt} {machine : Machine}
    (completes : statement.Completes name allowance machine) : statement.Reaches name := by
  induction completes with
  | assign done => exact .assign _ _ _
  | inside unscoped enters _ ih =>
      cases enters with
      | block => exact absurd trivial unscoped
      | thenBranch => exact .thenBranch ih
      | elseBranch => exact .elseBranch ih
      | whileBody => exact .body ih
      | forBody => exact absurd trivial unscoped

/-- A while loop keeps what a round of it has bound. -/
theorem whileLoop_bound {span : Span} {condition : Expr} {body : Stmt}
    {machine current : Machine} {ending : Ending}
    (arrives : Loop.Arrives condition.holds (body.exec allowance) .ok allowance machine current)
    (holds : condition.holds current = .ok true)
    (binds : ∀ inside, body.exec allowance current = some inside →
      name ∈ inside.machine.memory.top.names)
    (runs : (Stmt.whileLoop span condition body).exec allowance machine = some ending) :
    name ∈ ending.machine.memory.top.names := by
  rw [exec_eq, unwrapped] at runs
  rcases arrives.runAt_eq span.line with ⟨left, same⟩
  rcases Loop.runAt_round holds (same.symm.trans runs) with ⟨inside, ended, last | further⟩
  · rw [last]
    exact binds inside ended
  · rcases further with ⟨next, goesOn, runs⟩
    cases Loop.advance_of_next? goesOn
    have grows := Loop.runAt_grows body.exec_grows (by rintro _ _ ⟨⟩; exact .refl _) (.refl _) runs
    exact grows.top (binds inside ended)

/-- What a run has completed is bound in the top frame, however the statement ends. -/
theorem Completes.bound {statement : Stmt} {machine : Machine}
    (completes : statement.Completes name allowance machine) {ending : Ending}
    (runs : statement.exec allowance machine = some ending) :
    name ∈ ending.machine.memory.top.names := by
  induction completes generalizing ending with
  | assign done =>
      rw [exec_eq, unwrapped, done] at runs
      cases runs
      rcases assigned_var done with ⟨new, _, rfl⟩
      exact (Bindings.mem_names_insert _ _ _ _).mpr (.inl rfl)
  | inside unscoped enters _ ih =>
      cases enters with
      | block => exact absurd trivial unscoped
      | thenBranch holds =>
          rw [exec_thenBranch holds] at runs
          exact ih runs
      | elseBranch holds =>
          rw [exec_elseBranch holds] at runs
          exact ih runs
      | whileBody arrives holds => exact whileLoop_bound arrives holds (fun _ => ih) runs
      | forBody => exact absurd trivial unscoped

/-- An assignment binds a new name in the top frame only if it is plain and to that variable. -/
theorem assigned_binds {span : Span} {memory after : Memory} {target value : Expr}
    {op : AssignOp} (indexed : (Stmt.assign span target op value).Indexed)
    (done : assigned memory target op value = .ok after) (new : name ∉ memory.top.names)
    (bound : name ∈ after.top.names) :
    ∃ targetSpan, target = .var targetSpan name ∧ op = .plain := by
  cases op with
  | plain =>
      rcases assigned_plain done with ⟨place, value, located, _, inserted⟩
      cases target with
      | var targetSpan other =>
          cases located
          cases inserted
          rcases (Bindings.mem_names_insert _ _ _ _).mp bound with rfl | earlier
          · exact ⟨targetSpan, rfl, rfl⟩
          · exact absurd earlier new
      | reference targetSpan container coordinates =>
          rcases Expr.place_of_reference located with ⟨places, evaluated, rfl⟩
          have notAll : places ≠ [] := by
            rintro rfl
            have lengths := Expr.evalInts_length evaluated
            exact indexed.coordinates (List.length_eq_zero_iff.mp lengths.symm)
          rcases Memory.writeSlot_of_ne_nil notAll inserted with ⟨array, changed, held, _, rfl⟩
          rw [Memory.names_update (Option.isSome_of_eq_some held)] at bound
          exact absurd bound new
      | _ => cases located
  | compound arith =>
      rcases assigned_compound done with ⟨place, _, old, combined, _, _, read, _, overwritten⟩
      have held : (memory.lookup? place.name).isSome := by
        cases found : memory.lookup? place.name with
        | some value => rfl
        | none =>
            rw [Memory.get, found] at read
            cases read
      have updated : ∃ changed, after = memory.update place.name changed := by
        cases place with
        | var other =>
            cases overwritten
            exact ⟨combined, rfl⟩
        | slot other coordinates => exact Memory.exists_of_writeSlot overwritten
      rcases updated with ⟨changed, rfl⟩
      rw [Memory.names_update held] at bound
      exact absurd bound new

/-- Where a new name is bound in the top frame, a plain assignment to it was completed. -/
theorem exec_completes (statement : Stmt) (machine : Machine) (ending : Ending)
    (indexed : ∀ node ∈ statement.nodes, node.Indexed)
    (runs : statement.exec allowance machine = some ending)
    (new : name ∉ machine.memory.top.names) (bound : name ∈ ending.machine.memory.top.names) :
    statement.Completes name allowance machine := by
  induction statement generalizing machine ending with
  | block span body each =>
      have opens : (Stmt.block span body).OpensScope := trivial
      rw [exec_names_of_opensScope opens runs] at bound
      exact absurd bound new
  | jump span kind =>
      cases kind <;>
      · cases runs
        exact absurd bound new
  | print span arguments =>
      rw [exec_eq, unwrapped] at runs
      split at runs <;>
      · cases runs
        exact absurd bound new
  | «return» span value =>
      rw [exec_eq, unwrapped] at runs
      split at runs <;>
      · cases runs
        exact absurd bound new
  | assign span target op value =>
      rw [exec_eq, unwrapped] at runs
      split at runs
      · cases runs
        exact absurd bound new
      · rename_i memory done
        cases runs
        rcases assigned_binds (indexed _ (self_mem_nodes _)) done new bound with
          ⟨targetSpan, rfl, rfl⟩
        exact .assign done
  | branch span condition thenBranch thenCompletes =>
      cases holds : condition.holds machine with
      | error fault =>
          rw [exec_eq, unwrapped, Expr.holds_error_iff.mp holds] at runs
          cases runs
          exact absurd bound new
      | ok truth =>
          cases truth with
          | true =>
              rw [exec_thenBranch holds] at runs
              exact .inside id (.thenBranch holds) (thenCompletes machine ending
                (fun node member => indexed node (nodes_subset_branch member)) runs new bound)
          | false =>
              rcases Expr.holds_ok_iff.mp holds with ⟨value, evaluated, falsy⟩
              rw [exec_eq, unwrapped, evaluated] at runs
              simp only [falsy] at runs
              cases runs
              exact absurd bound new
  | alternative span condition thenBranch elseBranch thenCompletes elseCompletes =>
      cases holds : condition.holds machine with
      | error fault =>
          rw [exec_eq, unwrapped, Expr.holds_error_iff.mp holds] at runs
          cases runs
          exact absurd bound new
      | ok truth =>
          cases truth with
          | true =>
              rw [exec_thenBranch holds] at runs
              exact .inside id (.thenBranch holds) (thenCompletes machine ending
                (fun node member => indexed node (nodes_subset_then member)) runs new bound)
          | false =>
              rw [exec_elseBranch holds] at runs
              exact .inside id (.elseBranch holds) (elseCompletes machine ending
                (fun node member => indexed node (nodes_subset_else member)) runs new bound)
  | whileLoop span condition body bodyCompletes =>
      rw [exec_eq, unwrapped] at runs
      rcases Loop.exists_round (fun current => name ∈ current.memory.top.names)
        (by rintro current next ⟨⟩ there; exact there) new runs bound with
        ⟨current, inside, arrives, holds, ended, currentNew, insideBound⟩
      exact .inside id (.whileBody arrives holds) (bodyCompletes current inside
        (fun node member => indexed node (nodes_subset_while member)) ended currentNew insideBound)
  | forLoop span counter first last body bodyCompletes =>
      have opens : (Stmt.forLoop span counter first last body).OpensScope := trivial
      rw [exec_names_of_opensScope opens runs] at bound
      exact absurd bound new

/-- A run of the statements completes a plain assignment to the variable. -/
def CompletesIn (name : String) (allowance : Nat) (statements : List Stmt) (machine : Machine) :
    Prop :=
  ∃ next between, Begins allowance statements machine next between ∧
    next.Completes name allowance between

theorem CompletesIn.reaches {statements : List Stmt} {machine : Machine}
    (completes : CompletesIn name allowance statements machine) :
    ∃ statement ∈ statements, statement.Reaches name := by
  rcases completes with ⟨next, between, ⟨front, back, rfl, _⟩, completes⟩
  exact ⟨next, List.mem_append_right _ List.mem_cons_self, completes.reaches⟩

theorem CompletesIn.bound {statements : List Stmt} {machine : Machine} {ending : Ending}
    (completes : CompletesIn name allowance statements machine)
    (runs : execAll allowance statements machine = some ending) :
    name ∈ ending.machine.memory.top.names := by
  rcases completes with ⟨next, between, ⟨front, back, rfl, passes⟩, completes⟩
  rw [execAll_of_passes passes, execAll] at runs
  split at runs
  · rename_i after ends
    have grows := execAll_grows (fun statement _ => statement.exec_grows) runs
    exact grows.top (completes.bound ends)
  · exact completes.bound runs

theorem execAll_completes {statements : List Stmt} {machine : Machine} {ending : Ending}
    (indexed : ∀ node ∈ nodesOfAll statements, node.Indexed)
    (runs : execAll allowance statements machine = some ending)
    (new : name ∉ machine.memory.top.names) (bound : name ∈ ending.machine.memory.top.names) :
    CompletesIn name allowance statements machine := by
  induction statements generalizing machine with
  | nil =>
      cases runs
      exact absurd bound new
  | cons head tail ih =>
      have headIndexed : ∀ node ∈ head.nodes, node.Indexed := fun node member =>
        indexed node (nodes_subset_nodesOfAll List.mem_cons_self member)
      have headBegins : Begins allowance (head :: tail) machine head machine :=
        ⟨[], tail, rfl, .nil machine⟩
      rw [execAll] at runs
      split at runs
      · rename_i after ends
        by_cases here : name ∈ after.memory.top.names
        · exact ⟨head, machine, headBegins, head.exec_completes machine _ headIndexed ends new here⟩
        · have tailIndexed : ∀ node ∈ nodesOfAll tail, node.Indexed := by
            intro node member
            rcases mem_nodesOfAll.mp member with ⟨statement, inTail, inside⟩
            exact indexed node (mem_nodesOfAll.mpr
              ⟨statement, List.mem_cons_of_mem _ inTail, inside⟩)
          rcases ih tailIndexed runs here with
            ⟨next, between, ⟨front, back, rfl, passes⟩, completes⟩
          exact ⟨next, between, ⟨head :: front, back, rfl, .cons ends passes⟩, completes⟩
      · exact ⟨head, machine, headBegins,
          head.exec_completes machine ending headIndexed runs new bound⟩

/-- The names in the top frame behind statements are those from before and those completed. -/
theorem execAll_bound_iff {statements : List Stmt} {machine : Machine} {ending : Ending}
    (indexed : ∀ node ∈ nodesOfAll statements, node.Indexed)
    (runs : execAll allowance statements machine = some ending) :
    name ∈ ending.machine.memory.top.names ↔
      name ∈ machine.memory.top.names ∨ CompletesIn name allowance statements machine := by
  constructor
  · intro bound
    exact Classical.or_iff_not_imp_left.mpr fun new => execAll_completes indexed runs new bound
  · rintro (earlier | completes)
    · exact (execAll_grows (fun statement _ => statement.exec_grows) runs).top earlier
    · exact completes.bound runs

end Stmt

/-! ## What is missing -/

section Missing

variable {memory : Memory} {name : String}

/-- No expression misses a name that has a value. -/
theorem Expr.eval_finds_bound (bound : (memory.lookup? name).isSome) (expr : Expr) :
    Finds name (expr.eval memory) := by
  induction expr with
  | int span value => exact .ok _
  | float span value => exact .ok _
  | string span value => exact .ok _
  | var span other => exact Memory.get_finds fun _ => bound
  | vector span elements each =>
      rw [eval]
      exact (evalAll_finds each).bind fun _ => .ok _
  | matrix span rows each =>
      rw [eval]
      exact (rowEvalAll_finds each).bind fun _ => .ok _
  | reference span container coordinates each =>
      rw [eval]
      exact (evalInts_finds each).bind fun _ => Memory.get_finds fun _ => bound
  | call span builtin arguments each =>
      rw [eval]
      exact (evalInts_finds each).bind fun sizes => (builtin.build_nameless sizes).finds
  | binary span left op right leftFinds rightFinds =>
      rw [eval]
      exact leftFinds.bind fun first => rightFinds.bind fun second =>
        (Value.binary_nameless op first second).finds
  | compare span left op right leftFinds rightFinds =>
      rw [eval]
      exact leftFinds.bind fun first => rightFinds.bind fun second =>
        (Value.compare_nameless op first second).finds
  | unary span op operand finds =>
      rw [eval]
      exact finds.bind fun value => (Value.unary_nameless op value).finds

theorem Stmt.assigned_finds_bound (bound : (memory.lookup? name).isSome) (target : Expr)
    (op : AssignOp) (value : Expr) : Finds name (assigned memory target op value) := by
  have places : Finds name (target.place memory) := by
    cases target with
    | var span other => exact .ok _
    | reference span container coordinates =>
        exact (Expr.evalInts_finds fun coordinate _ =>
          coordinate.eval_finds_bound bound).bind fun _ => .ok _
    | _ => rintro ⟨⟩
  have sets (place : Place) (new : Value) : Finds name (memory.set place new) := by
    cases place with
    | var other => exact .ok _
    | slot other coordinates => exact Memory.writeSlot_finds fun _ => bound
  cases op with
  | plain =>
      rw [assigned_eq_insert]
      refine places.bind fun place => (value.eval_finds_bound bound).bind fun new => ?_
      cases place with
      | var other => exact .ok _
      | slot other coordinates => exact sets (.slot other coordinates) new
  | compound arith =>
      rw [assigned_eq_set]
      refine places.bind fun place => (value.eval_finds_bound bound).bind fun new => ?_
      refine Finds.bind (Memory.get_finds fun _ => bound) fun old => ?_
      exact (Value.binary_nameless _ old new).finds.bind fun combined => sets place combined

/-- An evaluation misses a name only if the name has no value. -/
theorem Evaluation.Meets.unbound {evaluation : Evaluation} {machine : Machine}
    (meets : evaluation.Meets machine (.undefinedVariable name)) :
    machine.memory.lookup? name = none := by
  refine Option.not_isSome_iff_eq_none.mp fun bound => ?_
  have evalFinds (expr : Expr) := expr.eval_finds_bound bound
  have intFinds (expr : Expr) : Finds name (expr.evalInt machine.memory) :=
    (evalFinds expr).bind fun value => (Value.expectInt_nameless value).finds
  cases evaluation with
  | arguments list =>
      exact Finds.bind (Expr.evalAll_finds fun expr _ => evalFinds expr) (fun _ => .ok _) meets
  | result value =>
      cases value with
      | none => cases meets
      | some expr => exact (evalFinds expr).bind (fun _ => .ok _) meets
  | assignment target op value => exact Stmt.assigned_finds_bound bound target op value meets
  | condition expr => exact evalFinds expr meets
  | range first last =>
      exact (intFinds first).bind (fun _ => (intFinds last).bind fun _ => .ok _) meets
  | count counter =>
      exact Finds.bind (Memory.get_finds fun _ => bound)
        (fun value => (Value.expectInt_nameless value).finds) meets

theorem Memory.lookup?_pop (unbound : memory.lookup? name = none) :
    memory.pop.lookup? name = none := by
  rcases memory with ⟨top, _ | ⟨next, rest⟩⟩
  · exact unbound
  · rw [lookup?, List.findSome?_eq_none_iff] at unbound ⊢
    exact fun frame member => unbound frame (List.mem_cons_of_mem _ member)

theorem Machine.lookup?_leave {machine : Machine} (depth : Nat)
    (unbound : machine.memory.lookup? name = none) :
    (leave^[depth] machine).memory.lookup? name = none := by
  induction depth generalizing machine with
  | zero => exact unbound
  | succ depth ih => exact ih (Memory.lookup?_pop unbound)

/-- Statements that fail for want of a name leave a machine that has no value for it. -/
theorem Stmt.execAll_unbound {allowance : Nat} {statements : List Stmt}
    {machine after : Machine} {error : RuntimeError}
    (runs : execAll allowance statements machine = some ⟨.error error, after⟩)
    (missing : error.fault = .undefinedVariable name) : after.memory.lookup? name = none := by
  rcases execAll_error_iff.mp runs with ⟨statement, between, _, fails⟩
  rcases statement.exists_comesTo between after fails with ⟨moment, fault, comes, meets⟩
  rw [comes.fails meets] at fails
  cases fails
  cases missing
  exact Machine.lookup?_leave _ meets.unbound

end Missing

end MatrixScript
