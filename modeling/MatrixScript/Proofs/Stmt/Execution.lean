import MatrixScript.Proofs.Stmt.Lines
import MatrixScript.Proofs.Stmt.Nodes

/-!
# What statements do to memory

`Loop.runAt_meets` is the rule for loops: what the test, one round of the body and the
advance keep is kept by every run of the loop, and the run ends with no other errors
than theirs.

`Stmt.exec_grows` says how a statement may change the frames.  However it ends, the
frames below the top bind the names they did, and the top frame has lost none.

`Stmt.execAll_cases` says how far a run of several statements gets.
-/

namespace MatrixScript

/-- The machine left behind is as wanted, and an error is one of those expected. -/
def Ending.Meets (holds : Machine → Prop) (expected : RuntimeError → Prop) (ending : Ending) :
    Prop :=
  holds ending.machine ∧ ∀ error, ending.flow = .error error → expected error

namespace Ending

variable {holds : Machine → Prop} {expected : RuntimeError → Prop} {machine : Machine}

theorem meets_done {flow : Flow} (kept : holds machine) :
    (done flow machine).Meets holds expected := by
  refine ⟨kept, ?_⟩
  intro error impossible
  cases impossible

theorem meets_failed {fault : Fault} {line : Nat} (kept : holds machine)
    (foreseen : expected ⟨fault, some line⟩) :
    (failed fault line machine).Meets holds expected := by
  refine ⟨kept, ?_⟩
  intro error same
  cases same
  exact foreseen

end Ending

/-! ## Loops -/

namespace Loop

variable {line : Nat} {test : Machine → Except Fault Bool} {body : Machine → Option Ending}
  {advance : Machine → Except Fault Machine} {holds : Machine → Prop}
  {expected : RuntimeError → Prop}

/-- One step of a loop keeps a property of machines and meets only expected errors. -/
structure Keeps (line : Nat) (test : Machine → Except Fault Bool)
    (body : Machine → Option Ending) (advance : Machine → Except Fault Machine)
    (holds : Machine → Prop) (expected : RuntimeError → Prop) : Prop where
  test : ∀ machine fault, holds machine → test machine = .error fault →
    expected ⟨fault, some line⟩
  body : ∀ machine ending, holds machine → body machine = some ending →
    ending.Meets holds expected
  stuck : ∀ machine fault, holds machine → advance machine = .error fault →
    expected ⟨fault, some line⟩
  advance : ∀ machine next, holds machine → advance machine = .ok next → holds next

/-- What one step of a loop keeps, every run of it keeps. -/
theorem runAt_meets (keeps : Keeps line test body advance holds expected) {allowance : Nat}
    {machine : Machine} {ending : Ending} (initially : holds machine)
    (runs : runAt line test body advance allowance machine = some ending) :
    ending.Meets holds expected := by
  induction allowance generalizing machine with
  | zero => cases runs
  | succ allowance ih =>
      rw [runAt] at runs
      split at runs
      · rename_i fault tested
        cases runs
        exact Ending.meets_failed initially (keeps.test machine fault initially tested)
      · cases runs
        exact Ending.meets_done initially
      · split at runs
        · cases runs
        · rename_i error after ended
          cases runs
          exact keeps.body machine _ initially ended
        · rename_i after ended
          cases runs
          exact Ending.meets_done (keeps.body machine _ initially ended).1
        · rename_i value after ended
          cases runs
          exact Ending.meets_done (keeps.body machine _ initially ended).1
        · rename_i flow after notBreak notReturn ended
          have kept := (keeps.body machine _ initially ended).1
          split at runs
          · rename_i fault blocked
            cases runs
            exact Ending.meets_failed kept (keeps.stuck after fault kept blocked)
          · rename_i next advanced
            exact ih (keeps.advance after next kept advanced) runs

/-- What the body and the advance of a loop keep is true of the machine it leaves. -/
theorem runAt_keeps (holds : Machine → Prop)
    (bodyKeeps : ∀ machine ending, holds machine → body machine = some ending →
      holds ending.machine)
    (advanceKeeps : ∀ machine next, holds machine → advance machine = .ok next → holds next)
    {allowance : Nat} {machine : Machine} {ending : Ending} (initially : holds machine)
    (runs : runAt line test body advance allowance machine = some ending) :
    holds ending.machine := by
  have keeps : Keeps line test body advance holds fun _ => True := by
    constructor
    · intro _ _ _ _
      trivial
    · intro machine ending held ended
      exact ⟨bodyKeeps machine ending held ended, fun _ _ => trivial⟩
    · intro _ _ _ _
      trivial
    · exact advanceKeeps
  exact (runAt_meets keeps initially runs).1

/-- A loop lets memory grow if its body and its advance do. -/
theorem runAt_grows {before : Memory}
    (bodyGrows : ∀ machine ending, body machine = some ending →
      machine.memory.Grows ending.machine.memory)
    (advanceGrows : ∀ machine next, advance machine = .ok next →
      machine.memory.Grows next.memory)
    {allowance : Nat} {machine : Machine} {ending : Ending}
    (grown : before.Grows machine.memory)
    (runs : runAt line test body advance allowance machine = some ending) :
    before.Grows ending.machine.memory := by
  apply runAt_keeps (fun machine => before.Grows machine.memory) ?_ ?_ grown runs
  · intro machine ending grown ended
    exact grown.trans (bodyGrows machine ending ended)
  · intro machine next grown advanced
    exact grown.trans (advanceGrows machine next advanced)

/-- A step of a for loop changes the counter and nothing else. -/
theorem exists_of_step {counter : String} {machine next : Machine}
    (stepped : step counter machine = .ok next) :
    ∃ current : Int64,
      next = { machine with memory := machine.memory.update counter (.int current) } := by
  rw [step] at stepped
  rcases exists_of_bind stepped with ⟨current, _, stepped⟩
  cases stepped
  exact ⟨current + 1, rfl⟩

theorem step_grows {counter : String} {machine next : Machine}
    (stepped : step counter machine = .ok next) : machine.memory.Grows next.memory := by
  rcases exists_of_step stepped with ⟨current, rfl⟩
  exact machine.memory.update_grows counter (.int current)

end Loop

/-! ## Statements -/

namespace Stmt

/-- What runs in a frame of its own leaves the frames around it with their names. -/
theorem inFrame_grows {body : Machine → Option Ending} {machine : Machine} {ending : Ending}
    (grows : ∀ inside, body machine.enter = some inside →
      machine.enter.memory.Grows inside.machine.memory)
    (runs : inFrame body machine = some ending) :
    machine.memory.Grows ending.machine.memory := by
  rcases Option.map_eq_some_iff.mp runs with ⟨inside, ended, rfl⟩
  exact (grows inside ended).pop

theorem execAll_grows {allowance : Nat} {statements : List Stmt} {machine : Machine}
    {ending : Ending}
    (each : ∀ statement ∈ statements, ∀ before after,
      statement.exec allowance before = some after →
        before.memory.Grows after.machine.memory)
    (runs : execAll allowance statements machine = some ending) :
    machine.memory.Grows ending.machine.memory := by
  induction statements generalizing machine with
  | nil =>
      cases runs
      exact .refl _
  | cons head tail ih =>
      rw [List.forall_mem_cons] at each
      rw [execAll] at runs
      split at runs
      · rename_i after headEnds
        exact (each.1 machine _ headEnds).trans (ih each.2 runs)
      · exact each.1 machine ending runs

/-- However a statement ends, the frames have grown at most in the top one. -/
theorem exec_grows {allowance : Nat} (statement : Stmt) (machine : Machine) (ending : Ending)
    (runs : statement.exec allowance machine = some ending) :
    machine.memory.Grows ending.machine.memory := by
  induction statement generalizing machine ending with
  | block span body each =>
      rw [exec_eq, unwrapped] at runs
      exact inFrame_grows (fun inside => execAll_grows each) runs
  | jump span kind =>
      cases kind <;>
      · cases runs
        exact .refl _
  | print span arguments =>
      rw [exec_eq, unwrapped] at runs
      split at runs <;>
      · cases runs
        exact .refl _
  | «return» span value =>
      rw [exec_eq, unwrapped] at runs
      split at runs <;>
      · cases runs
        exact .refl _
  | assign span target op value =>
      rw [exec_eq, unwrapped] at runs
      split at runs
      · cases runs
        exact .refl _
      · rename_i memory done
        cases runs
        exact assigned_grows done
  | branch span condition thenBranch thenGrows =>
      rw [exec_eq, unwrapped] at runs
      split at runs
      · cases runs
        exact .refl _
      · split at runs
        · exact thenGrows machine ending runs
        · cases runs
          exact .refl _
  | alternative span condition thenBranch elseBranch thenGrows elseGrows =>
      rw [exec_eq, unwrapped] at runs
      split at runs
      · cases runs
        exact .refl _
      · split at runs
        · exact thenGrows machine ending runs
        · exact elseGrows machine ending runs
  | whileLoop span condition body bodyGrows =>
      rw [exec_eq, unwrapped] at runs
      refine Loop.runAt_grows bodyGrows ?_ (.refl _) runs
      rintro current next ⟨⟩
      exact .refl _
  | forLoop span counter first last body bodyGrows =>
      rw [exec_eq, unwrapped] at runs
      split at runs
      · cases runs
        exact .refl _
      · rename_i low high bounded
        refine inFrame_grows ?_ runs
        intro inside ended
        exact Loop.runAt_grows bodyGrows (fun _ _ => Loop.step_grows)
          (Memory.bind_grows _ _ _) ended

/-! ## Statements in order -/

/-- Each of the statements ends normally, and the last one leaves the given machine. -/
inductive Passes (allowance : Nat) : List Stmt → Machine → Machine → Prop where
  | nil (machine : Machine) : Passes allowance [] machine machine
  | cons {head : Stmt} {tail : List Stmt} {machine between after : Machine}
      (headEnds : head.exec allowance machine = some (.done .normal between))
      (tailPasses : Passes allowance tail between after) :
      Passes allowance (head :: tail) machine after

section Sequences

variable {allowance : Nat} {statements front back : List Stmt} {machine between : Machine}

/-- A run that has passed the statements in front goes on with those behind. -/
theorem execAll_of_passes (passes : Passes allowance front machine between) :
    execAll allowance (front ++ back) machine = execAll allowance back between := by
  induction passes with
  | nil => rfl
  | cons headEnds _ ih =>
      rw [List.cons_append, execAll, headEnds]
      exact ih

/-- A run passes all the statements, or it passes some of them and stops at the next. -/
theorem execAll_cases {ending : Ending}
    (runs : execAll allowance statements machine = some ending) :
    (∃ after, Passes allowance statements machine after ∧ ending = .done .normal after) ∨
      ∃ front statement back between, statements = front ++ statement :: back ∧
        Passes allowance front machine between ∧
        statement.exec allowance between = some ending ∧ ending.flow ≠ .ok .normal := by
  induction statements generalizing machine with
  | nil =>
      cases runs
      exact .inl ⟨machine, .nil machine, rfl⟩
  | cons head tail ih =>
      rw [execAll] at runs
      split at runs
      · rename_i after headEnds
        rcases ih runs with ⟨last, passes, normal⟩ | stopped
        · exact .inl ⟨last, .cons headEnds passes, normal⟩
        · rcases stopped with ⟨front, statement, back, between, rfl, passes, stops⟩
          exact .inr ⟨head :: front, statement, back, between, rfl, .cons headEnds passes, stops⟩
      · rename_i notNormal
        refine .inr ⟨[], head, tail, machine, rfl, .nil machine, runs, ?_⟩
        intro normal
        rcases ending with ⟨flow, after⟩
        cases normal
        exact notNormal after runs

end Sequences

end Stmt

/-- A program leaves the machine that its statements leave. -/
theorem Program.conclude_machine (ending : Ending) :
    (conclude ending).machine = ending.machine := by
  rcases ending with ⟨flow, machine⟩
  cases flow with
  | error error => rfl
  | ok flow => cases flow <;> rfl

end MatrixScript
