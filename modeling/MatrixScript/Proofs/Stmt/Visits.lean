import MatrixScript.Proofs.Stmt.Execution
import MatrixScript.Proofs.Stmt.Sites

/-!
# Where a run comes

While a program runs, it comes to some of its sites, to those in a loop perhaps many times.
A visit is a site together with the machine that a run comes with.

`Stmt.visits` lists the visits of a run in their order.  `Stmt.visits_keep` is the rule
for properties of memory.  If every visited assignment and every counter keeps the
property, and if it survives an empty frame put on top and the top frame taken off, then
the whole run keeps it, and it is there before and after every visit.
-/

namespace MatrixScript

/-- A site that a run comes to, and the machine that it comes with. -/
structure Visit where
  site : Site
  machine : Machine

namespace Loop

/-- The machine that is prepared for another round after one that ended, if there is one. -/
def next? (advance : Machine → Except Fault Machine) (ending : Ending) : Option Machine :=
  match ending.flow with
  | .ok .normal | .ok .«continue» => (advance ending.machine).toOption
  | _ => none

/-- The machines with which the rounds of a loop begin. -/
def rounds (test : Machine → Except Fault Bool) (body : Machine → Option Ending)
    (advance : Machine → Except Fault Machine) : Nat → Machine → List Machine
  | 0, _ => []
  | allowance + 1, machine =>
      match test machine with
      | .ok true =>
          machine ::
            match (body machine).bind (next? advance) with
            | some next => rounds test body advance allowance next
            | none => []
      | _ => []

end Loop

mutual

/-- The visits of a run of a statement that is checked in a given state. -/
@[simp]
def Stmt.visits (allowance : Nat) :
    Stmt → List String → Checker → Machine → List Visit
  | .block span body, declared, checker, machine =>
      ⟨⟨checker, declared, .block span body⟩, machine⟩ ::
        Stmt.visitsOfAll allowance body [] { checker with chain := checker.chain.enter }
          machine.enter
  | .jump span kind, declared, checker, machine =>
      [⟨⟨checker, declared, .jump span kind⟩, machine⟩]
  | .print span arguments, declared, checker, machine =>
      [⟨⟨checker, declared, .print span arguments⟩, machine⟩]
  | .return span value, declared, checker, machine =>
      [⟨⟨checker, declared, .return span value⟩, machine⟩]
  | .assign span target op value, declared, checker, machine =>
      [⟨⟨checker, declared, .assign span target op value⟩, machine⟩]
  | .branch span condition thenBranch elseBranch, declared, checker, machine =>
      let tested := checker.note (condition.check checker.chain)
      ⟨⟨checker, declared, .branch span condition thenBranch elseBranch⟩, machine⟩ ::
        match condition.eval machine.memory with
        | .error _ => []
        | .ok value =>
            if value.isTruthy then thenBranch.visits allowance declared tested machine
            else
              match elseBranch with
              | none => []
              | some other =>
                  other.visits allowance declared (thenBranch.check tested) machine
  | .whileLoop span condition body, declared, checker, machine =>
      ⟨⟨checker, declared, .whileLoop span condition body⟩, machine⟩ ::
        (Loop.rounds (fun current => (condition.eval current.memory).map Value.isTruthy)
          (body.exec allowance) .ok allowance machine).flatMap
          (body.visits allowance declared (checker.insideWhile condition))
  | .forLoop span counter first last body, declared, checker, machine =>
      ⟨⟨checker, declared, .forLoop span counter first last body⟩, machine⟩ ::
        match Stmt.bounds machine.memory first last with
        | .error _ => []
        | .ok (low, high) =>
            (Loop.rounds (Loop.below counter.item high) (body.exec allowance)
              (Loop.step counter.item) allowance
              { machine.enter with
                memory := machine.enter.memory.bind counter.item (.int low) }).flatMap
              (body.visits allowance [counter.item]
                (checker.insideFor counter.item first last))

/-- The visits of a run of statements in order. -/
@[simp]
def Stmt.visitsOfAll (allowance : Nat) :
    List Stmt → List String → Checker → Machine → List Visit
  | [], _, _, _ => []
  | head :: tail, declared, checker, machine =>
      head.visits allowance declared checker machine ++
        match head.exec allowance machine with
        | some ⟨.ok .normal, after⟩ =>
            Stmt.visitsOfAll allowance tail (head.declares ++ declared) (head.check checker) after
        | _ => []

end

/-- The visits of a run of a program. -/
def Program.visits (program : Program) (allowance : Nat) (machine : Machine) : List Visit :=
  Stmt.visitsOfAll allowance program.body [] .start machine

namespace Stmt

variable {allowance : Nat}

theorem visits_head (statement : Stmt) (declared : List String) (checker : Checker)
    (machine : Machine) :
    ⟨⟨checker, declared, statement⟩, machine⟩ ∈
      statement.visits allowance declared checker machine := by
  cases statement with
  | branch span condition thenBranch elseBranch => cases elseBranch <;> simp
  | _ => simp

theorem visitsOfAll_sites {statements : List Stmt}
    (each : ∀ statement ∈ statements, ∀ declared checker machine,
      ∀ visit ∈ statement.visits allowance declared checker machine,
        visit.site ∈ statement.sites declared checker)
    (declared : List String) (checker : Checker) (machine : Machine) :
    ∀ visit ∈ visitsOfAll allowance statements declared checker machine,
      visit.site ∈ sitesOfAll statements declared checker := by
  induction statements generalizing declared checker machine with
  | nil =>
      intro visit member
      cases member
  | cons head tail ih =>
      rw [List.forall_mem_cons] at each
      intro visit member
      rw [visitsOfAll, List.mem_append] at member
      rw [sitesOfAll, List.mem_append]
      rcases member with inHead | inTail
      · exact .inl (each.1 declared checker machine visit inHead)
      · split at inTail
        · exact .inr (ih each.2 _ _ _ visit inTail)
        · cases inTail

/-- A run comes only to sites of the statement. -/
theorem visits_sites (statement : Stmt) (declared : List String) (checker : Checker)
    (machine : Machine) :
    ∀ visit ∈ statement.visits allowance declared checker machine,
      visit.site ∈ statement.sites declared checker := by
  induction statement generalizing declared checker machine with
  | block span body each =>
      rw [visits, List.forall_mem_cons, sites]
      refine ⟨List.mem_cons_self, ?_⟩
      intro visit member
      exact List.mem_cons_of_mem _ (visitsOfAll_sites each _ _ _ visit member)
  | jump span kind => simp [sites]
  | print span arguments => simp [sites]
  | «return» span value => simp [sites]
  | assign span target op value => simp [sites]
  | branch span condition thenBranch thenSites =>
      rw [visits, List.forall_mem_cons, sites]
      refine ⟨List.mem_cons_self, ?_⟩
      intro visit member
      apply List.mem_cons_of_mem
      split at member
      · cases member
      · split at member
        · exact thenSites _ _ _ visit member
        · cases member
  | alternative span condition thenBranch elseBranch thenSites elseSites =>
      rw [visits, List.forall_mem_cons, sites]
      refine ⟨List.mem_cons_self, ?_⟩
      intro visit member
      apply List.mem_cons_of_mem
      rw [List.mem_append]
      split at member
      · cases member
      · split at member
        · exact .inl (thenSites _ _ _ visit member)
        · exact .inr (elseSites _ _ _ visit member)
  | whileLoop span condition body bodySites =>
      rw [visits, List.forall_mem_cons, sites]
      refine ⟨List.mem_cons_self, ?_⟩
      intro visit member
      rcases List.mem_flatMap.mp member with ⟨current, _, inRound⟩
      exact List.mem_cons_of_mem _ (bodySites _ _ current visit inRound)
  | forLoop span counter first last body bodySites =>
      rw [visits, List.forall_mem_cons, sites]
      refine ⟨List.mem_cons_self, ?_⟩
      intro visit member
      split at member
      · cases member
      · rcases List.mem_flatMap.mp member with ⟨current, _, inRound⟩
        exact List.mem_cons_of_mem _ (bodySites _ _ current visit inRound)

end Stmt

theorem Program.visits_sites {program : Program} {allowance : Nat} {machine : Machine}
    {visit : Visit} (member : visit ∈ program.visits allowance machine) :
    visit.site ∈ program.sites :=
  Stmt.visitsOfAll_sites (fun statement _ => statement.visits_sites) [] .start machine visit
    member

/-! ## What a run keeps -/

/-- The property is there when the visit begins, and when it ends if it does. -/
def Visit.Keeps (allowance : Nat) (holds : Memory → Prop) (visit : Visit) : Prop :=
  holds visit.machine.memory ∧
    ∀ ending, visit.site.statement.exec allowance visit.machine = some ending →
      holds ending.machine.memory

/-- What the statement itself writes into memory keeps the property. -/
def Visit.Preserves (holds : Memory → Prop) (visit : Visit) : Prop :=
  match visit.site.statement with
  | .assign _ target op value =>
      holds visit.machine.memory →
        ∀ after, Stmt.assigned visit.machine.memory target op value = .ok after → holds after
  | .forLoop _ counter _ _ _ =>
      ∀ (memory : Memory) (number : Int64), holds memory →
        holds (memory.bind counter.item (.int number)) ∧
          holds (memory.update counter.item (.int number))
  | _ => True

namespace Loop

variable {line : Nat} {test : Machine → Except Fault Bool} {body : Machine → Option Ending}
  {advance : Machine → Except Fault Machine}

theorem advance_of_next? {ending : Ending} {next : Machine}
    (goesOn : next? advance ending = some next) : advance ending.machine = .ok next := by
  unfold next? at goesOn
  cases advanced : advance ending.machine with
  | ok prepared =>
      rw [advanced] at goesOn
      split at goesOn
      · cases goesOn
        rfl
      · cases goesOn
        rfl
      · cases goesOn
  | error fault =>
      rw [advanced] at goesOn
      split at goesOn <;> cases goesOn

/-- A loop with a round to do ends with that round, or goes on behind it. -/
theorem runAt_round {allowance : Nat} {machine : Machine} {ending : Ending}
    (tested : test machine = .ok true)
    (runs : runAt line test body advance (allowance + 1) machine = some ending) :
    ∃ inside, body machine = some inside ∧ (ending.machine = inside.machine ∨
      ∃ next, next? advance inside = some next ∧
        runAt line test body advance allowance next = some ending) := by
  rw [runAt, tested] at runs
  cases ended : body machine with
  | none =>
      rw [ended] at runs
      cases runs
  | some inside =>
      rw [ended] at runs
      refine ⟨inside, rfl, ?_⟩
      rcases inside with ⟨error | flow, after⟩
      · cases runs
        exact .inl rfl
      · cases flow with
        | «break» =>
            cases runs
            exact .inl rfl
        | «return» value =>
            cases runs
            exact .inl rfl
        | _ =>
            simp only [next?]
            cases advanced : advance after with
            | error fault =>
                simp only [advanced] at runs
                cases runs
                exact .inl rfl
            | ok next =>
                simp only [advanced] at runs
                exact .inr ⟨next, rfl, runs⟩

theorem runAt_of_next {allowance : Nat} {machine next : Machine} {inside : Ending}
    (tested : test machine = .ok true) (ended : body machine = some inside)
    (goesOn : next? advance inside = some next) :
    runAt line test body advance (allowance + 1) machine =
      runAt line test body advance allowance next := by
  have advanced := advance_of_next? goesOn
  rw [runAt, tested]
  rcases inside with ⟨error | flow, after⟩
  · cases goesOn
  · cases flow with
    | normal => simp only [ended, advanced]
    | «continue» => simp only [ended, advanced]
    | _ => cases goesOn

/-- How a loop ends with a round that is its last is settled by how the round ended. -/
theorem runAt_of_last {machine : Machine} {inside : Ending} (tested : test machine = .ok true)
    (stopped : next? advance inside = none) :
    ∃ ending, ∀ (body : Machine → Option Ending) (allowance : Nat), body machine = some inside →
      runAt line test body advance (allowance + 1) machine = some ending := by
  rcases inside with ⟨error | flow, after⟩
  · refine ⟨⟨.error error, after⟩, ?_⟩
    intro body allowance ended
    rw [runAt, tested]
    simp only [ended]
  · cases flow with
    | «break» =>
        refine ⟨.done .normal after, ?_⟩
        intro body allowance ended
        rw [runAt, tested]
        simp only [ended]
    | «return» value =>
        refine ⟨.done (.return value) after, ?_⟩
        intro body allowance ended
        rw [runAt, tested]
        simp only [ended]
    | _ =>
        cases advanced : advance after with
        | error fault =>
            refine ⟨.failed fault line after, ?_⟩
            intro body allowance ended
            rw [runAt, tested]
            simp only [ended, advanced]
        | ok next => simp [next?, advanced, Except.toOption] at stopped

theorem rounds_of_next {allowance : Nat} {machine next : Machine} {inside : Ending}
    (tested : test machine = .ok true) (ended : body machine = some inside)
    (goesOn : next? advance inside = some next) :
    rounds test body advance (allowance + 1) machine =
      machine :: rounds test body advance allowance next := by
  rw [rounds, tested]
  simp only [ended, Option.bind_some, goesOn]

theorem rounds_of_last {allowance : Nat} {machine : Machine} (tested : test machine = .ok true)
    (stopped : (body machine).bind (next? advance) = none) :
    rounds test body advance (allowance + 1) machine = [machine] := by
  rw [rounds, tested]
  simp only [stopped]

theorem self_mem_rounds {allowance : Nat} {machine : Machine} (tested : test machine = .ok true) :
    machine ∈ rounds test body advance (allowance + 1) machine := by
  rw [rounds, tested]
  exact List.mem_cons_self

theorem rounds_of_not {allowance : Nat} {machine : Machine} (refused : test machine ≠ .ok true) :
    rounds test body advance (allowance + 1) machine = [] := by
  rw [rounds]
  split
  · rename_i tested
    exact absurd tested refused
  · rfl

/-- What the rounds of a loop and its advance keep is there before every round and at the end. -/
theorem rounds_keep (line : Nat) (holds : Machine → Prop)
    (advanceKeeps : ∀ machine next, holds machine → advance machine = .ok next → holds next)
    {allowance : Nat} {machine : Machine} (initially : holds machine)
    (bodyKeeps : ∀ current ∈ rounds test body advance allowance machine, holds current →
      ∀ ending, body current = some ending → holds ending.machine) :
    (∀ current ∈ rounds test body advance allowance machine, holds current) ∧
      ∀ ending, runAt line test body advance allowance machine = some ending →
        holds ending.machine := by
  induction allowance generalizing machine with
  | zero =>
      constructor
      · intro current member
        cases member
      · intro ending runs
        cases runs
  | succ allowance ih =>
      rw [rounds] at bodyKeeps ⊢
      split
      · rename_i tested
        simp only [tested] at bodyKeeps
        rw [List.forall_mem_cons] at bodyKeeps ⊢
        have ends := bodyKeeps.1 initially
        cases goesOn : (body machine).bind (next? advance) with
        | none =>
            refine ⟨⟨initially, by simp⟩, ?_⟩
            intro ending runs
            rcases runAt_round tested runs with ⟨inside, ended, same | ⟨next, another, _⟩⟩
            · rw [same]
              exact ends inside ended
            · rw [ended, Option.bind_some, another] at goesOn
              cases goesOn
        | some next =>
            simp only [goesOn] at bodyKeeps
            rcases Option.bind_eq_some_iff.mp goesOn with ⟨inside, ended, prepared⟩
            have nextHolds := advanceKeeps _ next (ends inside ended) (advance_of_next? prepared)
            rcases ih nextHolds bodyKeeps.2 with ⟨each, atEnd⟩
            refine ⟨⟨initially, each⟩, ?_⟩
            intro ending runs
            rcases runAt_round tested runs with ⟨other, endedToo, same | ⟨_, another, rest⟩⟩
            · rw [same]
              exact ends other endedToo
            · rw [endedToo, Option.bind_some, another] at goesOn
              cases goesOn
              exact atEnd ending rest
      · rename_i notTested
        refine ⟨by simp, ?_⟩
        intro ending runs
        rw [runAt] at runs
        split at runs
        · cases runs
          exact initially
        · cases runs
          exact initially
        · rename_i tested
          exact absurd tested notTested

end Loop

namespace Stmt

variable {allowance : Nat} {holds : Memory → Prop}

/-- A run of the statement that begins with the property has it at every visit. -/
def Upholds (allowance : Nat) (holds : Memory → Prop) (statement : Stmt) : Prop :=
  ∀ declared checker machine, holds machine.memory →
    (∀ visit ∈ statement.visits allowance declared checker machine, visit.Preserves holds) →
    ∀ visit ∈ statement.visits allowance declared checker machine, visit.Keeps allowance holds

theorem Upholds.ends {statement : Stmt} (upholds : statement.Upholds allowance holds)
    {declared : List String} {checker : Checker} {machine : Machine}
    (initially : holds machine.memory)
    (preserve : ∀ visit ∈ statement.visits allowance declared checker machine,
      visit.Preserves holds)
    (ending : Ending) (runs : statement.exec allowance machine = some ending) :
    holds ending.machine.memory :=
  (upholds declared checker machine initially preserve _ (visits_head _ _ _ _)).2 ending runs

theorem visitsOfAll_keep {statements : List Stmt}
    (each : ∀ statement ∈ statements, statement.Upholds allowance holds)
    {declared : List String} {checker : Checker} {machine : Machine}
    (initially : holds machine.memory)
    (preserve : ∀ visit ∈ visitsOfAll allowance statements declared checker machine,
      visit.Preserves holds) :
    (∀ visit ∈ visitsOfAll allowance statements declared checker machine,
      visit.Keeps allowance holds) ∧
    ∀ ending, execAll allowance statements machine = some ending →
      holds ending.machine.memory := by
  induction statements generalizing declared checker machine with
  | nil =>
      constructor
      · intro visit member
        cases member
      · rintro ending ⟨⟩
        exact initially
  | cons head tail ih =>
      rw [List.forall_mem_cons] at each
      rw [visitsOfAll, List.forall_mem_append] at preserve ⊢
      have headKeeps := each.1 declared checker machine initially preserve.1
      have headEnds := each.1.ends initially preserve.1
      have tailKeeps : ∀ after, head.exec allowance machine = some ⟨.ok .normal, after⟩ →
          (∀ visit ∈ visitsOfAll allowance tail (head.declares ++ declared) (head.check checker)
            after, visit.Keeps allowance holds) ∧
          ∀ ending, execAll allowance tail after = some ending →
            holds ending.machine.memory := by
        intro after ended
        simp only [ended] at preserve
        exact ih each.2 (headEnds _ ended) preserve.2
      refine ⟨⟨headKeeps, ?_⟩, ?_⟩
      · split
        · rename_i after ended
          exact (tailKeeps after ended).1
        · simp
      · intro ending runs
        rw [execAll] at runs
        split at runs
        · rename_i after ended
          exact (tailKeeps after ended).2 ending runs
        · exact headEnds ending runs

/-- What holds inside a frame of its own holds outside if it survives the loss of that frame. -/
theorem inFrame_keeps {body : Machine → Option Ending} {machine : Machine} {ending : Ending}
    (leaves : ∀ memory, holds memory → holds memory.pop)
    (inside : ∀ ending, body machine.enter = some ending → holds ending.machine.memory)
    (runs : inFrame body machine = some ending) : holds ending.machine.memory := by
  rcases Option.map_eq_some_iff.mp runs with ⟨ended, ran, rfl⟩
  exact leaves _ (inside ended ran)

theorem block_upholds {span : Span} {body : List Stmt}
    (enters : ∀ memory, holds memory → holds (memory.push .empty))
    (leaves : ∀ memory, holds memory → holds memory.pop)
    (each : ∀ statement ∈ body, statement.Upholds allowance holds) :
    (Stmt.block span body).Upholds allowance holds := by
  intro declared checker machine initially preserve
  rw [visits, List.forall_mem_cons] at preserve ⊢
  have inside : holds machine.enter.memory := enters _ initially
  rcases visitsOfAll_keep each inside preserve.2 with ⟨keep, ends⟩
  refine ⟨⟨initially, ?_⟩, keep⟩
  intro ending runs
  rw [exec_eq, unwrapped] at runs
  exact inFrame_keeps leaves ends runs

theorem branch_upholds {span : Span} {condition : Expr} {thenBranch : Stmt}
    (thenUpholds : thenBranch.Upholds allowance holds) :
    (Stmt.branch span condition thenBranch none).Upholds allowance holds := by
  intro declared checker machine initially preserve
  rw [visits, List.forall_mem_cons] at preserve ⊢
  cases evaluated : condition.eval machine.memory with
  | error fault =>
      refine ⟨⟨initially, ?_⟩, by simp⟩
      intro ending runs
      rw [exec_eq, unwrapped, evaluated] at runs
      cases runs
      exact initially
  | ok value =>
      simp only [evaluated] at preserve
      by_cases truthy : value.isTruthy = true
      · simp only [truthy, if_true] at preserve ⊢
        refine ⟨⟨initially, ?_⟩, thenUpholds _ _ _ initially preserve.2⟩
        intro ending runs
        rw [exec_eq, unwrapped, evaluated] at runs
        simp only [truthy, if_true] at runs
        exact thenUpholds.ends initially preserve.2 ending runs
      · simp only [truthy]
        refine ⟨⟨initially, ?_⟩, by simp⟩
        intro ending runs
        rw [exec_eq, unwrapped, evaluated] at runs
        simp only [truthy] at runs
        cases runs
        exact initially

theorem alternative_upholds {span : Span} {condition : Expr} {thenBranch elseBranch : Stmt}
    (thenUpholds : thenBranch.Upholds allowance holds)
    (elseUpholds : elseBranch.Upholds allowance holds) :
    (Stmt.branch span condition thenBranch (some elseBranch)).Upholds allowance holds := by
  intro declared checker machine initially preserve
  rw [visits, List.forall_mem_cons] at preserve ⊢
  cases evaluated : condition.eval machine.memory with
  | error fault =>
      refine ⟨⟨initially, ?_⟩, by simp⟩
      intro ending runs
      rw [exec_eq, unwrapped, evaluated] at runs
      cases runs
      exact initially
  | ok value =>
      simp only [evaluated] at preserve
      by_cases truthy : value.isTruthy = true
      · simp only [truthy, if_true] at preserve ⊢
        refine ⟨⟨initially, ?_⟩, thenUpholds _ _ _ initially preserve.2⟩
        intro ending runs
        rw [exec_eq, unwrapped, evaluated] at runs
        simp only [truthy, if_true] at runs
        exact thenUpholds.ends initially preserve.2 ending runs
      · simp only [truthy] at preserve ⊢
        refine ⟨⟨initially, ?_⟩, elseUpholds _ _ _ initially preserve.2⟩
        intro ending runs
        rw [exec_eq, unwrapped, evaluated] at runs
        simp only [truthy] at runs
        exact elseUpholds.ends initially preserve.2 ending runs

/-- The visits of the rounds of a loop, and the memory it leaves. -/
theorem rounds_uphold {line : Nat} {test : Machine → Except Fault Bool} {body : Stmt}
    {advance : Machine → Except Fault Machine} (bodyUpholds : body.Upholds allowance holds)
    (advanceKeeps : ∀ machine next, holds machine.memory → advance machine = .ok next →
      holds next.memory)
    {declared : List String} {checker : Checker} {machine : Machine}
    (initially : holds machine.memory)
    (preserve : ∀ visit ∈ (Loop.rounds test (body.exec allowance) advance allowance
      machine).flatMap (body.visits allowance declared checker), visit.Preserves holds) :
    (∀ visit ∈ (Loop.rounds test (body.exec allowance) advance allowance machine).flatMap
      (body.visits allowance declared checker), visit.Keeps allowance holds) ∧
    ∀ ending, Loop.runAt line test (body.exec allowance) advance allowance machine =
      some ending → holds ending.machine.memory := by
  have inRound : ∀ current ∈ Loop.rounds test (body.exec allowance) advance allowance machine,
      ∀ visit ∈ body.visits allowance declared checker current, visit.Preserves holds := by
    intro current begins visit member
    exact preserve visit (List.mem_flatMap.mpr ⟨current, begins, member⟩)
  have bodyKeeps : ∀ current ∈ Loop.rounds test (body.exec allowance) advance allowance machine,
      holds current.memory → ∀ ending, body.exec allowance current = some ending →
        holds ending.machine.memory := by
    intro current begins held
    exact bodyUpholds.ends held (inRound current begins)
  rcases Loop.rounds_keep line (fun current => holds current.memory) advanceKeeps initially
    bodyKeeps with ⟨each, ends⟩
  refine ⟨?_, ends⟩
  intro visit member
  rcases List.mem_flatMap.mp member with ⟨current, begins, member⟩
  exact bodyUpholds _ _ _ (each current begins) (inRound current begins) visit member

theorem while_upholds {span : Span} {condition : Expr} {body : Stmt}
    (bodyUpholds : body.Upholds allowance holds) :
    (Stmt.whileLoop span condition body).Upholds allowance holds := by
  intro declared checker machine initially preserve
  rw [visits, List.forall_mem_cons] at preserve ⊢
  have same : ∀ current next : Machine, holds current.memory →
      (.ok current : Except Fault Machine) = .ok next → holds next.memory := by
    rintro current _ held ⟨⟩
    exact held
  rcases rounds_uphold bodyUpholds same initially preserve.2 with ⟨keep, ends⟩
  refine ⟨⟨initially, ?_⟩, keep⟩
  intro ending runs
  rw [exec_eq, unwrapped] at runs
  exact ends ending runs

theorem for_upholds {span : Span} {counter : Located String} {first last : Expr} {body : Stmt}
    (enters : ∀ memory, holds memory → holds (memory.push .empty))
    (leaves : ∀ memory, holds memory → holds memory.pop)
    (bodyUpholds : body.Upholds allowance holds) :
    (Stmt.forLoop span counter first last body).Upholds allowance holds := by
  intro declared checker machine initially preserve
  rw [visits, List.forall_mem_cons] at preserve ⊢
  have counts : ∀ (memory : Memory) (number : Int64), holds memory →
      holds (memory.bind counter.item (.int number)) ∧
        holds (memory.update counter.item (.int number)) := preserve.1
  cases bounded : bounds machine.memory first last with
  | error fault =>
      refine ⟨⟨initially, ?_⟩, by simp⟩
      intro ending runs
      rw [exec_eq, unwrapped, bounded] at runs
      cases runs
      exact initially
  | ok range =>
      rcases range with ⟨low, high⟩
      simp only [bounded] at preserve ⊢
      have steps : ∀ current next, holds current.memory →
          Loop.step counter.item current = .ok next → holds next.memory := by
        intro current next held stepped
        rcases Loop.exists_of_step stepped with ⟨number, rfl⟩
        exact (counts _ _ held).2
      have begins := (counts _ low (enters _ initially)).1
      rcases rounds_uphold bodyUpholds steps begins preserve.2 with ⟨keep, ends⟩
      refine ⟨⟨initially, ?_⟩, keep⟩
      intro ending runs
      rw [exec_eq, unwrapped, bounded] at runs
      exact inFrame_keeps leaves ends runs

/--
A property that survives the entry into a frame and the exit from it, and that every visit
preserves in what it writes, is upheld by every statement.
-/
theorem visits_keep (enters : ∀ memory, holds memory → holds (memory.push .empty))
    (leaves : ∀ memory, holds memory → holds memory.pop) (statement : Stmt) :
    statement.Upholds allowance holds := by
  induction statement with
  | block span body each => exact block_upholds enters leaves each
  | jump span kind =>
      intro declared checker machine initially preserve
      rw [visits, List.forall_mem_singleton]
      refine ⟨initially, ?_⟩
      intro ending runs
      cases kind <;>
      · cases runs
        exact initially
  | print span arguments =>
      intro declared checker machine initially preserve
      rw [visits, List.forall_mem_singleton]
      refine ⟨initially, ?_⟩
      intro ending runs
      rw [exec_eq, unwrapped] at runs
      split at runs <;>
      · cases runs
        exact initially
  | «return» span value =>
      intro declared checker machine initially preserve
      rw [visits, List.forall_mem_singleton]
      refine ⟨initially, ?_⟩
      intro ending runs
      rw [exec_eq, unwrapped] at runs
      split at runs <;>
      · cases runs
        exact initially
  | assign span target op value =>
      intro declared checker machine initially preserve
      rw [visits, List.forall_mem_singleton] at preserve ⊢
      refine ⟨initially, ?_⟩
      intro ending runs
      rw [exec_eq, unwrapped] at runs
      split at runs
      · cases runs
        exact initially
      · rename_i memory done
        cases runs
        exact preserve initially memory done
  | branch span condition thenBranch thenUpholds => exact branch_upholds thenUpholds
  | alternative span condition thenBranch elseBranch thenUpholds elseUpholds =>
      exact alternative_upholds thenUpholds elseUpholds
  | whileLoop span condition body bodyUpholds => exact while_upholds bodyUpholds
  | forLoop span counter first last body bodyUpholds =>
      exact for_upholds enters leaves bodyUpholds

end Stmt

/-- The rule for programs: what every visit preserves is there at every visit and at the end. -/
theorem Program.visits_keep {holds : Memory → Prop}
    (enters : ∀ memory, holds memory → holds (memory.push .empty))
    (leaves : ∀ memory, holds memory → holds memory.pop) {program : Program} {allowance : Nat}
    {machine : Machine} (initially : holds machine.memory)
    (preserve : ∀ visit ∈ program.visits allowance machine, visit.Preserves holds) :
    (∀ visit ∈ program.visits allowance machine, visit.Keeps allowance holds) ∧
      ∀ run, program.run allowance machine = some run → holds run.machine.memory := by
  rcases Stmt.visitsOfAll_keep (fun statement _ => statement.visits_keep enters leaves)
    initially preserve with ⟨keep, ends⟩
  refine ⟨keep, ?_⟩
  intro run ran
  rcases Option.map_eq_some_iff.mp ran with ⟨ending, ended, rfl⟩
  have same : (conclude ending).machine = ending.machine := by
    unfold conclude
    split <;> rfl
  rw [same]
  exact ends ending ended

end MatrixScript
