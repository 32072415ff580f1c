import MatrixScript.Proofs.Value.Faults
import MatrixScript.Proofs.Stmt.Checking
import MatrixScript.Proofs.Stmt.Execution

/-!
# Names in scope have values

The scopes of the checker and the frames of the machine are two views of the same
names.  They agree on a name if it has a value wherever it is in scope; then no
clean statement fails for want of a value of it.

A clean statement keeps this agreement, with one exception: a branch or a while loop
may declare the name for the checker and leave it unbound in the machine.  So an
accepted program reads an unbound name only if it declares that name under a condition.
-/

namespace MatrixScript

/-- The computation does not end with the fault that the name has no value. -/
def Finds {α : Type} (name : String) (outcome : Except Fault α) : Prop :=
  outcome ≠ .error (.undefinedVariable name)

namespace Finds

variable {α β : Type} {name : String}

theorem ok (result : α) : Finds name (.ok result : Except Fault α) := nofun

theorem bind {first : Except Fault α} {next : α → Except Fault β} (before : Finds name first)
    (after : ∀ result, Finds name (next result)) : Finds name (first >>= next) := by
  cases first with
  | ok result => exact after result
  | error fault =>
      rintro ⟨⟩
      exact before rfl

theorem map {outcome : Except Fault α} (finds : Finds name outcome) (change : α → β) :
    Finds name (outcome.map change) := by
  cases outcome with
  | ok result => exact ok (change result)
  | error fault =>
      rintro ⟨⟩
      exact finds rfl

theorem fault_ne {outcome : Except Fault α} (finds : Finds name outcome) {fault : Fault}
    (fails : outcome = .error fault) : fault ≠ .undefinedVariable name := by
  rintro rfl
  exact finds fails

end Finds

theorem Nameless.finds {α : Type} {outcome : Except Fault α} (nameless : Nameless outcome)
    {name : String} : Finds name outcome := by
  rintro rfl
  exact nameless rfl

namespace Memory

variable {memory : Memory} {name : String}

/-- The name has a value if it is in scope. -/
def Covers (memory : Memory) (chain : ScopeChain) (name : String) : Prop :=
  (chain.get? name).isSome → (memory.lookup? name).isSome

theorem Covers.grows {chain : ScopeChain} {after : Memory} (covers : memory.Covers chain name)
    (grows : memory.Grows after) : after.Covers chain name :=
  fun visible => grows.isSome_lookup? (covers visible)

theorem get_finds {place : Place} (bound : place.name = name → (memory.lookup? name).isSome) :
    Finds name (memory.get place) := by
  unfold get
  split
  · rename_i missing
    rintro ⟨⟩
    rw [missing] at bound
    exact absurd (bound rfl) nofun
  · cases place with
    | var other => exact .ok _
    | slot other coordinates => exact (Value.read_nameless _ coordinates).finds

theorem writeSlot_finds {other : String} {coordinates : List Int64} {value : Value}
    (bound : other = name → (memory.lookup? name).isSome) :
    Finds name (memory.writeSlot other coordinates value).outcome := by
  by_cases all : coordinates = []
  · subst all
    exact .ok _
  · cases held : memory.lookup? other with
    | none =>
        rw [writeSlot_of_unbound all held]
        rintro ⟨⟩
        rw [held] at bound
        exact absurd (bound rfl) Bool.false_ne_true
    | some array =>
        rw [writeSlot_outcome all held]
        exact (array.write_nameless value coordinates).finds.bind fun _ => .ok _

end Memory

/-! ## Expressions -/

namespace Expr

variable {chain : ScopeChain} {memory : Memory} {name : String}

theorem evalAll_finds {exprs : List Expr}
    (each : ∀ expr ∈ exprs, Finds name (expr.eval memory)) :
    Finds name (evalAll memory exprs) := by
  induction exprs with
  | nil => exact .ok _
  | cons head tail ih =>
      rw [List.forall_mem_cons] at each
      rw [evalAll]
      exact each.1.bind fun _ => (ih each.2).bind fun _ => .ok _

theorem evalInts_finds {exprs : List Expr}
    (each : ∀ expr ∈ exprs, Finds name (expr.eval memory)) :
    Finds name (evalInts memory exprs) := by
  induction exprs with
  | nil => exact .ok _
  | cons head tail ih =>
      rw [List.forall_mem_cons] at each
      rw [evalInts]
      refine each.1.bind fun value => ?_
      refine (Value.expectInt_nameless value).finds.bind fun _ => ?_
      exact (ih each.2).bind fun _ => .ok _

theorem rowEvalAll_finds {rows : List Row}
    (each : ∀ row ∈ rows, ∀ cell ∈ row.cells, Finds name (cell.eval memory)) :
    Finds name (Row.evalAll memory rows) := by
  induction rows with
  | nil => exact .ok _
  | cons head tail ih =>
      cases head with
      | mk span cells =>
          rw [List.forall_mem_cons] at each
          rw [Row.evalAll]
          exact (evalAll_finds each.1).bind fun _ => (ih each.2).bind fun _ => .ok _

theorem reference_proper {span : Span} {container : Located String} {coordinates : List Expr}
    (chainProper : chain.Formed fun _ => True)
    (accepted : (Expr.reference span container coordinates).Accepted chain) :
    (chain.get? container.item).isSome ∧
      ∀ coordinate ∈ coordinates, coordinate.Accepted chain := by
  rcases reference_clean chainProper.defined
    (fun _ _ clean => (check_proper chainProper clean).isUndefined_eq) accepted with
    ⟨_, found, _, ints, _⟩
  exact ⟨Option.isSome_of_eq_some found, fun coordinate member => (ints coordinate member).1⟩

/-- An accepted expression finds a value for every name that memory covers. -/
theorem eval_finds (chainProper : chain.Formed fun _ => True)
    (covers : memory.Covers chain name) (expr : Expr) (accepted : expr.Accepted chain) :
    Finds name (expr.eval memory) := by
  induction expr with
  | int span value => exact .ok _
  | float span value => exact .ok _
  | string span value => exact .ok _
  | var span other =>
      refine Memory.get_finds ?_
      rintro rfl
      exact covers (Option.isSome_of_eq_some (checkVariable_clean accepted))
  | vector span elements each =>
      rw [Accepted, check, Checked.diagnostics_bind, List.append_eq_nil_iff] at accepted
      have all := checkAll_clean.mp accepted.1
      rw [eval]
      exact (evalAll_finds fun element member => each element member (all element member)).bind
        fun _ => .ok _
  | matrix span rows each =>
      rw [Accepted, check, Checked.diagnostics_bind, List.append_eq_nil_iff] at accepted
      have all := rowCheckAll_clean.mp accepted.1
      rw [eval]
      exact (rowEvalAll_finds fun row inRows cell inRow =>
        each row inRows cell inRow (all row inRows cell inRow)).bind fun _ => .ok _
  | reference span container coordinates each =>
      rcases reference_proper chainProper accepted with ⟨visible, all⟩
      rw [eval]
      refine (evalInts_finds fun coordinate member =>
        each coordinate member (all coordinate member)).bind fun places => ?_
      refine Memory.get_finds ?_
      rintro rfl
      exact covers visible
  | call span builtin arguments each =>
      rcases call_clean
        (fun _ _ clean => (check_proper chainProper clean).isUndefined_eq) accepted with
        ⟨ints, _⟩
      rw [eval]
      refine (evalInts_finds fun argument member =>
        each argument member (ints argument member).1).bind fun sizes => ?_
      exact (builtin.build_nameless sizes).finds
  | binary span left op right leftFinds rightFinds =>
      simp only [Accepted, check, Checked.diagnostics_bind, List.append_eq_nil_iff] at accepted
      rw [eval]
      refine (leftFinds accepted.1).bind fun first => ?_
      refine (rightFinds accepted.2.1).bind fun second => ?_
      exact (Value.binary_nameless op first second).finds
  | compare span left op right leftFinds rightFinds =>
      simp only [Accepted, check, Checked.diagnostics_bind, List.append_eq_nil_iff] at accepted
      rw [eval]
      refine (leftFinds accepted.1).bind fun first => ?_
      refine (rightFinds accepted.2.1).bind fun second => ?_
      exact (Value.compare_nameless op first second).finds
  | unary span op operand finds =>
      simp only [Accepted, check, Checked.diagnostics_bind, List.append_eq_nil_iff] at accepted
      rw [eval]
      refine (finds accepted.1).bind fun value => ?_
      exact (Value.unary_nameless op value).finds

end Expr

/-! ## Simple statements -/

namespace Stmt

variable {chain : ScopeChain} {memory : Memory} {name : String}

theorem printedLine_finds {arguments : List Expr} (chainProper : chain.Formed fun _ => True)
    (covers : memory.Covers chain name)
    (clean : (Expr.checkAll chain arguments).diagnostics = []) :
    Finds name (printedLine memory arguments) := by
  have all := Expr.checkAll_clean.mp clean
  refine Finds.bind (Expr.evalAll_finds ?_) fun _ => .ok _
  intro argument member
  exact Expr.eval_finds chainProper covers argument (all argument member)

theorem bounds_finds {first last : Expr} (chainProper : chain.Formed fun _ => True)
    (covers : memory.Covers chain name) (firstAccepted : first.Accepted chain)
    (lastAccepted : last.Accepted chain) : Finds name (bounds memory first last) := by
  have evalInt {expr : Expr} (accepted : expr.Accepted chain) :
      Finds name (expr.evalInt memory) :=
    (Expr.eval_finds chainProper covers expr accepted).bind
      fun value => (Value.expectInt_nameless value).finds
  exact (evalInt firstAccepted).bind fun _ => (evalInt lastAccepted).bind fun _ => .ok _

theorem checkBound_clean {bound : Expr} (clean : (checkBound chain bound).diagnostics = []) :
    bound.Accepted chain := by
  rw [checkBound, Checked.diagnostics_bind, List.append_eq_nil_iff] at clean
  exact clean.1

/-- A clean assignment finds a value for every name that memory covers. -/
theorem Assignment.finds {after : ScopeChain} {target value : Expr} {op : AssignOp}
    (assignment : Assignment chain value target op after) (chainProper : chain.Formed fun _ => True)
    (covers : memory.Covers chain name) (accepted : value.Accepted chain) :
    Finds name (assigned memory target op value) := by
  have valueFinds := Expr.eval_finds chainProper covers value accepted
  cases assignment with
  | declare proper =>
      rw [assigned_eq_insert]
      exact valueFinds.bind fun _ => .ok _
  | @store _ container coordinates _ _ slot =>
      rcases Expr.reference_proper chainProper slot with ⟨visible, all⟩
      have bound : container.item = name → (memory.lookup? name).isSome := by
        rintro rfl
        exact covers visible
      have places : Finds name (Expr.evalInts memory coordinates) := by
        apply Expr.evalInts_finds
        intro coordinate member
        exact Expr.eval_finds chainProper covers coordinate (all coordinate member)
      cases op with
      | plain =>
          simp only [assigned_eq_insert, Expr.place, bind_assoc, ok_bind]
          refine places.bind fun slots => ?_
          exact valueFinds.bind fun new => Memory.writeSlot_finds bound
      | compound arith =>
          simp only [assigned_eq_set, Expr.place, bind_assoc, ok_bind]
          refine places.bind fun slots => ?_
          refine valueFinds.bind fun new => ?_
          refine Finds.bind (Memory.get_finds bound) fun old => ?_
          refine (Value.binary_nameless _ old new).finds.bind fun combined => ?_
          exact Memory.writeSlot_finds bound
  | @combine _ variableName _ _ known =>
      have bound : variableName = name → (memory.lookup? name).isSome := by
        rintro rfl
        exact covers (Option.isSome_of_eq_some (Expr.checkVariable_clean known))
      rw [assigned_eq_set]
      refine valueFinds.bind fun new => ?_
      refine Finds.bind (Memory.get_finds bound) fun old => ?_
      exact (Value.binary_nameless _ old new).finds.bind fun _ => .ok _

theorem Assignment.covers {after : ScopeChain} {changed : Memory} {target value : Expr}
    {op : AssignOp} (assignment : Assignment chain value target op after)
    (covers : memory.Covers chain name) (done : assigned memory target op value = .ok changed) :
    changed.Covers after name := by
  by_cases declares : ∃ span, target = .var span name ∧ op = .plain
  · rcases declares with ⟨span, rfl, rfl⟩
    intro _
    rcases assigned_var done with ⟨new, _, rfl⟩
    rw [Memory.lookup?_bind, if_pos rfl]
    rfl
  · intro visible
    have before := assignment.visible (fun span same => declares ⟨span, same⟩) visible
    exact (assigned_grows done).isSome_lookup? (covers before)

end Stmt

/-! ## Statements -/

namespace Ending

/-- The ending is not the failure that the name has no value. -/
def Finds (name : String) (ending : Ending) : Prop :=
  ∀ error, ending.flow = .error error → error.fault ≠ .undefinedVariable name

/-- No failure for want of the name; and after normal flow, memory covers it in the scopes. -/
structure Covers (ending : Ending) (chain : ScopeChain) (name : String) : Prop where
  finds : ending.Finds name
  memory : ending.flow = .ok .normal → ending.machine.memory.Covers chain name

variable {chain : ScopeChain} {name : String} {machine : Machine}

theorem finds_done (flow : Flow) : (done flow machine).Finds name := by
  intro error impossible
  cases impossible

theorem finds_failed {α : Type} {outcome : Except Fault α} {fault : Fault} {line : Nat}
    (finds : MatrixScript.Finds name outcome) (fails : outcome = .error fault) :
    (failed fault line machine).Finds name := by
  rintro error ⟨⟩
  exact finds.fault_ne fails

theorem covers_done {flow : Flow} (covers : machine.memory.Covers chain name) :
    (done flow machine).Covers chain name :=
  ⟨finds_done flow, fun _ => covers⟩

theorem covers_failed {α : Type} {outcome : Except Fault α} {fault : Fault} {line : Nat}
    (finds : MatrixScript.Finds name outcome) (fails : outcome = .error fault) :
    (failed fault line machine).Covers chain name := by
  refine ⟨finds_failed finds fails, ?_⟩
  intro impossible
  cases impossible

end Ending

namespace Stmt

variable {name : String} {allowance : Nat}

/-- From scopes that memory covers at the name, a clean statement leads to such scopes. -/
def Respects (name : String) (allowance : Nat) (statement : Stmt) : Prop :=
  ∀ (checker : Checker) (machine : Machine) (ending : Ending),
    checker.chain.Formed (fun _ => True) → (statement.check checker).diagnostics = [] →
    machine.memory.Covers checker.chain name →
    statement.exec allowance machine = some ending →
    ending.Covers (statement.check checker).chain name

/-- Where no plain assignment to the name is reached, growth alone keeps it covered. -/
theorem covers_of_unreached {statement : Stmt} {checker : Checker} {machine : Machine}
    {ending : Ending} (unreached : ¬ statement.Reaches name)
    (chainProper : checker.chain.Formed fun _ => True)
    (clean : (statement.check checker).diagnostics = [])
    (covers : machine.memory.Covers checker.chain name)
    (runs : statement.exec allowance machine = some ending) :
    ending.machine.memory.Covers (statement.check checker).chain name := by
  intro visible
  have before := statement.check_visible checker unreached chainProper clean visible
  exact (statement.exec_grows machine ending runs).isSome_lookup? (covers before)

theorem assign_respects (span : Span) (target : Expr) (op : AssignOp) (value : Expr) :
    (Stmt.assign span target op value).Respects name allowance := by
  intro checker machine ending chainProper clean covers runs
  rcases checkAssign_clean chainProper (Checker.note_clean.mp clean).2 with
    ⟨accepted, assignment⟩
  rw [exec_eq, unwrapped] at runs
  split at runs
  · rename_i fault fails
    cases runs
    exact Ending.covers_failed (assignment.finds chainProper covers accepted) fails
  · rename_i memory done
    cases runs
    exact Ending.covers_done (assignment.covers covers done)

theorem print_respects (span : Span) (arguments : List Expr) :
    (Stmt.print span arguments).Respects name allowance := by
  intro checker machine ending chainProper clean covers runs
  rw [exec_eq, unwrapped] at runs
  split at runs
  · rename_i fault fails
    cases runs
    exact Ending.covers_failed
      (printedLine_finds chainProper covers (Checker.note_clean.mp clean).2) fails
  · cases runs
    exact Ending.covers_done covers

theorem return_respects (span : Span) (value : Option Expr) :
    (Stmt.return span value).Respects name allowance := by
  intro checker machine ending chainProper clean covers runs
  rw [exec_eq, unwrapped] at runs
  cases value with
  | none =>
      cases runs
      exact Ending.covers_done covers
  | some expr =>
      have finds := Expr.eval_finds chainProper covers expr (Checker.note_clean.mp clean).2
      split at runs
      · rename_i fault fails
        cases runs
        exact Ending.covers_failed (finds.bind fun _ => .ok _) fails
      · cases runs
        exact Ending.covers_done covers

theorem execAll_covers {statements : List Stmt}
    (each : ∀ statement ∈ statements, statement.Respects name allowance)
    (checker : Checker) {machine : Machine} {ending : Ending}
    (chainProper : checker.chain.Formed fun _ => True)
    (clean : (checkAll statements checker).diagnostics = [])
    (covers : machine.memory.Covers checker.chain name)
    (runs : execAll allowance statements machine = some ending) :
    ending.Covers (checkAll statements checker).chain name := by
  induction statements generalizing checker machine with
  | nil =>
      cases runs
      exact Ending.covers_done covers
  | cons head tail ih =>
      rw [List.forall_mem_cons] at each
      rw [checkAll] at clean ⊢
      have headClean : (head.check checker).diagnostics = [] :=
        (checkAll_extends (fun statement _ => check_extends statement) _).clean clean
      rw [execAll] at runs
      split at runs
      · rename_i after headEnds
        have headCovers := each.1 checker machine _ chainProper headClean covers headEnds
        exact ih each.2 (head.check checker) (head.check_proper checker chainProper headClean)
          clean (headCovers.memory rfl) runs
      · rename_i notNormal
        have headCovers := each.1 checker machine ending chainProper headClean covers runs
        refine ⟨headCovers.finds, ?_⟩
        intro normal
        rcases ending with ⟨flow, after⟩
        cases normal
        exact absurd runs (notNormal after)

/-- What runs in a frame of its own is covered by the scopes around it, if it does not fail. -/
theorem inFrame_covers {body : Machine → Option Ending} {chain : ScopeChain}
    {machine : Machine} {ending : Ending}
    (finds : ∀ inside, body machine.enter = some inside → inside.Finds name)
    (grows : machine.memory.Grows ending.machine.memory)
    (covers : machine.memory.Covers chain name)
    (runs : inFrame body machine = some ending) : ending.Covers chain name := by
  rcases Option.map_eq_some_iff.mp runs with ⟨inside, ended, rfl⟩
  exact ⟨finds inside ended, fun _ => covers.grows grows⟩

theorem block_respects (span : Span) {body : List Stmt}
    (each : ∀ statement ∈ body, statement.Respects name allowance) :
    (Stmt.block span body).Respects name allowance := by
  intro checker machine ending chainProper clean covers runs
  have grows := (Stmt.block span body).exec_grows machine ending runs
  rw [exec_eq, unwrapped] at runs
  rw [check, inScope_check_chain]
  refine inFrame_covers ?_ grows covers runs
  intro inside ended
  have entered : machine.enter.memory.Covers checker.chain.enter name := covers
  exact (execAll_covers each { checker with chain := checker.chain.enter } chainProper clean
    entered ended).finds

theorem branch_respects (span : Span) (condition : Expr) {thenBranch : Stmt}
    (unreached : ¬ thenBranch.Reaches name) (thenRespects : thenBranch.Respects name allowance) :
    (Stmt.branch span condition thenBranch none).Respects name allowance := by
  intro checker machine ending chainProper clean covers runs
  have conditional : ¬ (Stmt.branch span condition thenBranch none).Reaches name := by
    intro reaches
    cases reaches with
    | thenBranch inside => exact unreached inside
  refine ⟨?_, fun _ => covers_of_unreached conditional chainProper clean covers runs⟩
  have conditionClean := Checker.note_clean.mp ((thenBranch.check_extends _).clean clean)
  rw [exec_eq, unwrapped] at runs
  split at runs
  · rename_i fault fails
    cases runs
    exact Ending.finds_failed
      (Expr.eval_finds chainProper covers condition conditionClean.2) fails
  · split at runs
    · exact (thenRespects (checker.note _) machine ending chainProper clean covers runs).finds
    · cases runs
      exact Ending.finds_done .normal

theorem alternative_respects (span : Span) (condition : Expr) {thenBranch elseBranch : Stmt}
    (thenUnreached : ¬ thenBranch.Reaches name) (elseUnreached : ¬ elseBranch.Reaches name)
    (thenRespects : thenBranch.Respects name allowance)
    (elseRespects : elseBranch.Respects name allowance) :
    (Stmt.branch span condition thenBranch (some elseBranch)).Respects name allowance := by
  intro checker machine ending chainProper clean covers runs
  have conditional :
      ¬ (Stmt.branch span condition thenBranch (some elseBranch)).Reaches name := by
    intro reaches
    cases reaches with
    | thenBranch inside => exact thenUnreached inside
    | elseBranch inside => exact elseUnreached inside
  refine ⟨?_, fun _ => covers_of_unreached conditional chainProper clean covers runs⟩
  rw [check] at clean
  have thenClean := (elseBranch.check_extends _).clean clean
  have conditionClean := Checker.note_clean.mp ((thenBranch.check_extends _).clean thenClean)
  rw [exec_eq, unwrapped] at runs
  split at runs
  · rename_i fault fails
    cases runs
    exact Ending.finds_failed
      (Expr.eval_finds chainProper covers condition conditionClean.2) fails
  · split at runs
    · exact (thenRespects (checker.note _) machine ending chainProper thenClean covers runs).finds
    · -- The alternative is checked in the scopes behind the first branch, which did not run.
      have thenProper := thenBranch.check_proper (checker.note _) chainProper thenClean
      have elseCovers : machine.memory.Covers
          (thenBranch.check (checker.note (condition.check checker.chain))).chain name := by
        intro visible
        exact covers
          (thenBranch.check_visible (checker.note _) thenUnreached chainProper thenClean visible)
      exact (elseRespects _ machine ending thenProper clean elseCovers runs).finds

theorem while_respects (span : Span) (condition : Expr) {body : Stmt}
    (unreached : ¬ body.Reaches name) (bodyRespects : body.Respects name allowance) :
    (Stmt.whileLoop span condition body).Respects name allowance := by
  intro checker machine ending chainProper clean covers runs
  have conditional : ¬ (Stmt.whileLoop span condition body).Reaches name := by
    intro reaches
    cases reaches with
    | body inside => exact unreached inside
  refine ⟨?_, fun _ => covers_of_unreached conditional chainProper clean covers runs⟩
  have conditionClean := Checker.note_clean.mp
    ((Checker.inLoop_extends body.check_extends).clean clean)
  rw [exec_eq, unwrapped] at runs
  have keeps : Loop.Keeps span.line
      (fun current => (condition.eval current.memory).map Value.isTruthy)
      (exec allowance body) .ok (fun current => machine.memory.Grows current.memory)
      (fun error => error.fault ≠ .undefinedVariable name) := by
    constructor
    · intro current fault grown fails
      have finds := Expr.eval_finds chainProper (covers.grows grown) condition conditionClean.2
      exact (finds.map Value.isTruthy).fault_ne fails
    · intro current after grown ended
      refine ⟨grown.trans (body.exec_grows current after ended), ?_⟩
      exact (bodyRespects
        { checker.note (condition.check checker.chain) with loopDepth := checker.loopDepth + 1 }
        current after chainProper clean (covers.grows grown) ended).finds
    · intro current fault grown impossible
      cases impossible
    · rintro current next grown ⟨⟩
      exact grown
  exact (Loop.runAt_meets keeps (.refl _) runs).2

/-- The rounds of a for loop find the counter and whatever the body finds. -/
theorem counted_keeps {counter : String} {body : Stmt} {memory : Memory} (line : Nat)
    (last : Int64) (checker : Checker) (chainProper : checker.chain.Formed fun _ => True)
    (clean : (checkCounted counter body checker).diagnostics = [])
    (covers : memory.Covers checker.chain name) (low : Int64)
    (bodyRespects : body.Respects name allowance) :
    Loop.Keeps line (Loop.below counter last) (exec allowance body) (Loop.step counter)
      (fun current => (memory.bind counter (.int low)).Grows current.memory)
      (fun error => error.fault ≠ .undefinedVariable name) := by
  have counterBound : ((memory.bind counter (.int low)).lookup? counter).isSome := by
    rw [Memory.lookup?_bind, if_pos rfl]
    rfl
  have bodyCovers : (memory.bind counter (.int low)).Covers
      (checker.chain.put counter ((Descriptor.scalar .int).named counter)) name := by
    intro visible
    by_cases same : name = counter
    · rw [same]
      exact counterBound
    · rw [ScopeChain.get?_put, if_neg same] at visible
      rw [Memory.lookup?_bind, if_neg same]
      exact covers visible
  have countFinds {current : Machine}
      (grown : (memory.bind counter (.int low)).Grows current.memory) :
      Finds name (Loop.count counter current) := by
    refine Finds.bind (Memory.get_finds ?_) fun value => (Value.expectInt_nameless value).finds
    rintro rfl
    exact grown.isSome_lookup? counterBound
  constructor
  · intro current fault grown fails
    exact ((countFinds grown).bind fun _ => .ok _).fault_ne fails
  · intro current after grown ended
    refine ⟨grown.trans (body.exec_grows current after ended), ?_⟩
    exact (bodyRespects _ current after (chainProper.put counter (.int counter)) clean
      (bodyCovers.grows grown) ended).finds
  · intro current fault grown fails
    exact ((countFinds grown).bind fun _ => .ok _).fault_ne fails
  · intro current next grown stepped
    exact grown.trans (Loop.step_grows stepped)

theorem for_respects (span : Span) (counter : Located String) (first last : Expr) {body : Stmt}
    (bodyRespects : body.Respects name allowance) :
    (Stmt.forLoop span counter first last body).Respects name allowance := by
  intro checker machine ending chainProper clean covers runs
  have grows := (Stmt.forLoop span counter first last body).exec_grows machine ending runs
  have behind :
      ((Stmt.forLoop span counter first last body).check checker).chain = checker.chain :=
    inScope_counted_chain _ counter.item body
  rw [behind]
  have boundsClean := Checker.note_clean.mp
    ((Checker.inLoop_extends fun looping =>
      Checker.inScope_extends (checkCounted_extends body.check_extends counter.item)).clean clean)
  have firstClean := Checker.note_clean.mp boundsClean.1
  rw [exec_eq, unwrapped] at runs
  split at runs
  · rename_i fault fails
    cases runs
    exact Ending.covers_failed (bounds_finds chainProper covers
      (checkBound_clean firstClean.2) (checkBound_clean boundsClean.2)) fails
  · rename_i low high bounded
    refine inFrame_covers ?_ grows covers runs
    intro inside ended
    have entered : machine.enter.memory.Covers checker.chain.enter name := covers
    have keeps := counted_keeps span.line high
      { (checker.note (checkBound checker.chain first)).note
          (checkBound checker.chain last) with
        loopDepth := checker.loopDepth + 1
        chain := checker.chain.enter }
      chainProper clean entered low bodyRespects
    exact (Loop.runAt_meets keeps (.refl _) ended).2

/-- A statement without conditional declarations of the name respects it. -/
theorem exec_respects (statement : Stmt)
    (unconditional : ∀ node ∈ statement.nodes, ¬ node.DeclaresConditionally name) :
    statement.Respects name allowance := by
  induction statement with
  | block span body each =>
      refine block_respects span fun statement member => ?_
      have inside : ∀ node ∈ statement.nodes, ¬ node.DeclaresConditionally name := by
        intro node found
        exact unconditional node (List.mem_cons_of_mem _ (nodes_subset_nodesOfAll member found))
      exact each statement member inside
  | jump span kind =>
      intro checker machine ending chainProper clean covers runs
      have scopes : ((Stmt.jump span kind).check checker).chain = checker.chain := by
        rw [check]
        split
        · rfl
        · rfl
      rw [scopes]
      cases kind <;>
      · cases runs
        exact Ending.covers_done covers
  | print span arguments => exact print_respects span arguments
  | «return» span value => exact return_respects span value
  | assign span target op value => exact assign_respects span target op value
  | branch span condition thenBranch thenRespects =>
      have inside : ∀ node ∈ thenBranch.nodes, ¬ node.DeclaresConditionally name := by
        intro node found
        exact unconditional node (List.mem_cons_of_mem _ found)
      have here := unconditional _ (self_mem_nodes _)
      exact branch_respects span condition (fun reaches => here (.inl reaches))
        (thenRespects inside)
  | alternative span condition thenBranch elseBranch thenRespects elseRespects =>
      have insideThen : ∀ node ∈ thenBranch.nodes, ¬ node.DeclaresConditionally name := by
        intro node found
        exact unconditional node (List.mem_cons_of_mem _ (List.mem_append_left _ found))
      have insideElse : ∀ node ∈ elseBranch.nodes, ¬ node.DeclaresConditionally name := by
        intro node found
        exact unconditional node (List.mem_cons_of_mem _ (List.mem_append_right _ found))
      have here := unconditional _ (self_mem_nodes _)
      exact alternative_respects span condition (fun reaches => here (.inl reaches))
        (fun reaches => here (.inr ⟨elseBranch, rfl, reaches⟩))
        (thenRespects insideThen) (elseRespects insideElse)
  | whileLoop span condition body bodyRespects =>
      have inside : ∀ node ∈ body.nodes, ¬ node.DeclaresConditionally name := by
        intro node found
        exact unconditional node (List.mem_cons_of_mem _ found)
      exact while_respects span condition (unconditional _ (self_mem_nodes _))
        (bodyRespects inside)
  | forLoop span counter first last body bodyRespects =>
      have inside : ∀ node ∈ body.nodes, ¬ node.DeclaresConditionally name := by
        intro node found
        exact unconditional node (List.mem_cons_of_mem _ found)
      exact for_respects span counter first last (bodyRespects inside)

end Stmt

/-! ## Programs -/

namespace Program

theorem run_finds {program : Program} {name : String}
    (unconditional : ∀ node ∈ program.nodes, ¬ node.DeclaresConditionally name)
    (accepted : program.check = []) {allowance : Nat} {transcript : Transcript} {run : Run}
    (runs : program.run allowance (.start transcript) = some run) {error : RuntimeError}
    (fails : run.result = .error error) : error.fault ≠ .undefinedVariable name := by
  rcases Option.map_eq_some_iff.mp runs with ⟨ending, ended, rfl⟩
  have respects : ∀ statement ∈ program.body, statement.Respects name allowance := by
    intro statement member
    apply Stmt.exec_respects
    intro node found
    exact unconditional node (Stmt.nodes_subset_nodesOfAll member found)
  have proper : Checker.start.chain.Formed fun _ => True := by
    intro other descriptor found
    cases found
  have nothing : (Machine.start transcript).memory.Covers Checker.start.chain name := by
    intro visible
    cases visible
  have covers := Stmt.execAll_covers respects .start proper accepted nothing ended
  rcases ending with ⟨_ | (_ | _ | _ | _), machine⟩
  · cases fails
    exact covers.finds _ rfl
  all_goals cases fails

/--
An accepted program reads an unbound name only after a conditional declaration.  If a
run of it ends with the fault that a name has no value, then some branch or while loop
of the program reaches a plain assignment to that name through branches and while
loops alone; and a program without such assignments never ends with that fault.
-/
theorem undefined_only_if_conditional {program : Program} (accepted : program.check = [])
    {allowance : Nat} {transcript : Transcript} {run : Run}
    (runs : program.run allowance (.start transcript) = some run) :
    (∀ name line?, run.result = .error ⟨.undefinedVariable name, line?⟩ →
        ∃ node ∈ program.nodes, node.DeclaresConditionally name) ∧
      ((∀ node ∈ program.nodes, ∀ name, ¬ node.DeclaresConditionally name) →
        ∀ error, run.result = .error error → error.fault.kind ≠ .undefinedVariable) := by
  constructor
  · intro name line? fails
    apply Classical.byContradiction
    intro none
    have unconditional : ∀ node ∈ program.nodes, ¬ node.DeclaresConditionally name := by
      intro node member declares
      exact none ⟨node, member, declares⟩
    exact run_finds unconditional accepted runs fails rfl
  · intro unconditional error fails undefined
    rcases error with ⟨fault, line?⟩
    cases fault with
    | undefinedVariable name =>
        exact run_finds (fun node member => unconditional node member name) accepted runs fails rfl
    | _ => cases undefined

/-- The program `if (0) x = 1; print x;`. -/
def conditionalDeclaration : Program :=
  ⟨[.branch default (.int default 0)
      (.assign default (.var default "x") .plain (.int default 1)) none,
    .print default [.var default "x"]]⟩

theorem undefined_only_if_conditional_print :
    conditionalDeclaration.check = [] ∧
      ∃ run, conditionalDeclaration.run 1 (.start .empty) = some run ∧
        run.result = .error ⟨.undefinedVariable "x", some 0⟩ ∧
        ∃ node ∈ conditionalDeclaration.nodes, node.DeclaresConditionally "x" := by
  have accepted : conditionalDeclaration.check = [] := by
    decide +kernel
  have runs : conditionalDeclaration.run 1 (.start .empty) =
      some ⟨.error ⟨.undefinedVariable "x", some 0⟩, .start .empty⟩ := rfl
  refine ⟨accepted, _, runs, rfl, ?_⟩
  exact (undefined_only_if_conditional accepted runs).1 "x" (some 0) rfl

end Program

end MatrixScript
