import MatrixScript.Proofs.Stmt.Assignments

/-!
# The line of an error

Every statement offers its line to the errors that come out of it, and so an error is
offered the line of each statement that it passes on its way out.  The first offer stays.
An error that has come out of a statement therefore has a line already, and what the
statements around do to it changes nothing: this is `Stmt.exec_atLine`.

So execution can be read without the offers.  `Stmt.unwrapped` puts the line into an error
where it is raised, and hands on the errors from inside; `Stmt.exec_eq` says that this is
what happens.
-/

namespace MatrixScript

namespace Ending

/-- A statement that met a fault on its line. -/
def failed (fault : Fault) (line : Nat) (machine : Machine) : Ending :=
  ⟨.error ⟨fault, some line⟩, machine⟩

/-- The error, if there is one, has a line. -/
def Lined (ending : Ending) : Prop :=
  ∀ error, ending.flow = .error error → error.line?.isSome

variable {line : Nat} {ending : Ending}

theorem lined_atLine (line : Nat) (ending : Ending) : (ending.atLine line).Lined := by
  rcases ending with ⟨error | flow, machine⟩
  · rintro _ ⟨⟩
    rfl
  · rintro _ ⟨⟩

/-- A second line is not taken. -/
theorem Lined.atLine_eq (lined : ending.Lined) : ending.atLine line = ending := by
  rcases ending with ⟨⟨fault, line?⟩ | flow, machine⟩
  · rcases Option.isSome_iff_exists.mp (lined _ rfl) with ⟨known, rfl⟩
    rfl
  · rfl

end Ending

/-! ## Loops -/

namespace Loop

/-- The rounds of a loop on a given line, which the errors of its test and its advance have. -/
def runAt (line : Nat) (test : Machine → Except Fault Bool) (body : Machine → Option Ending)
    (advance : Machine → Except Fault Machine) : Nat → Machine → Option Ending
  | 0, _ => none
  | allowance + 1, machine =>
      match test machine with
      | .error fault => some (.failed fault line machine)
      | .ok false => some (.done .normal machine)
      | .ok true =>
          match body machine with
          | none => none
          | some ⟨.error error, after⟩ => some ⟨.error error, after⟩
          | some ⟨.ok .«break», after⟩ => some (.done .normal after)
          | some ⟨.ok (.return value), after⟩ => some (.done (.return value) after)
          | some ⟨.ok _, after⟩ =>
              match advance after with
              | .error fault => some (.failed fault line after)
              | .ok next => runAt line test body advance allowance next

variable {line : Nat} {test : Machine → Except Fault Bool} {body : Machine → Option Ending}
  {advance : Machine → Except Fault Machine}

/-- If the errors of the body have their lines, a loop adds its own to the other errors. -/
theorem run_atLine (lined : ∀ machine ending, body machine = some ending → ending.Lined)
    (allowance : Nat) (machine : Machine) :
    (run test body advance allowance machine).map (Ending.atLine line) =
      runAt line test body advance allowance machine := by
  induction allowance generalizing machine with
  | zero => rfl
  | succ allowance ih =>
      rw [run, runAt]
      cases test machine with
      | error fault => rfl
      | ok again =>
          cases again with
          | false => rfl
          | true =>
              cases ended : body machine with
              | none => rfl
              | some ending =>
                  rcases ending with ⟨error | flow, after⟩
                  · exact congrArg some (lined machine _ ended).atLine_eq
                  · cases flow with
                    | «break» => rfl
                    | «return» value => rfl
                    | _ =>
                        dsimp only
                        cases advance after with
                        | error fault => rfl
                        | ok next => exact ih next

end Loop

/-! ## Statements -/

namespace Stmt

/-- Execution of a statement, with lines where errors are raised and nowhere else. -/
def unwrapped (allowance : Nat) : Stmt → Machine → Option Ending
  | .block _ body, machine => inFrame (execAll allowance body) machine
  | .jump _ .«break», machine => some (.done .«break» machine)
  | .jump _ .«continue», machine => some (.done .«continue» machine)
  | .print span arguments, machine =>
      match printedLine machine.memory arguments with
      | .error fault => some (.failed fault span.line machine)
      | .ok line =>
          some (.done .normal { machine with transcript := machine.transcript.printLine line })
  | .return span value, machine =>
      match returned machine.memory value with
      | .error fault => some (.failed fault span.line machine)
      | .ok result => some (.done (.return result) machine)
  | .assign span target op value, machine =>
      match assigned machine.memory target op value with
      | .error fault => some (.failed fault span.line machine)
      | .ok memory => some (.done .normal { machine with memory := memory })
  | .branch span condition thenBranch elseBranch, machine =>
      match condition.eval machine.memory with
      | .error fault => some (.failed fault span.line machine)
      | .ok value =>
          if value.isTruthy then thenBranch.exec allowance machine
          else
            match elseBranch with
            | none => some (.done .normal machine)
            | some statement => statement.exec allowance machine
  | .whileLoop span condition body, machine =>
      Loop.runAt span.line
        (fun current => (condition.eval current.memory).map Value.isTruthy)
        (body.exec allowance) .ok allowance machine
  | .forLoop span counter first last body, machine =>
      match bounds machine.memory first last with
      | .error fault => some (.failed fault span.line machine)
      | .ok (low, high) =>
          inFrame
            (fun inner =>
              Loop.runAt span.line (Loop.below counter.item high) (body.exec allowance)
                (Loop.step counter.item) allowance
                { inner with memory := inner.memory.bind counter.item (.int low) })
            machine

variable {allowance : Nat}

/-- An error that comes out of a statement has a line. -/
theorem exec_lined (statement : Stmt) (machine : Machine) (ending : Ending)
    (runs : statement.exec allowance machine = some ending) : ending.Lined := by
  rw [exec.eq_def] at runs
  rcases Option.map_eq_some_iff.mp runs with ⟨inside, _, rfl⟩
  exact Ending.lined_atLine _ inside

/-- What has come out of a statement takes no other line. -/
theorem exec_atLine (line : Nat) (statement : Stmt) (machine : Machine) :
    (statement.exec allowance machine).map (Ending.atLine line) =
      statement.exec allowance machine := by
  cases runs : statement.exec allowance machine with
  | none => rfl
  | some ending => exact congrArg some (statement.exec_lined machine ending runs).atLine_eq

theorem execAll_atLine (line : Nat) (statements : List Stmt) (machine : Machine) :
    (execAll allowance statements machine).map (Ending.atLine line) =
      execAll allowance statements machine := by
  induction statements generalizing machine with
  | nil => rfl
  | cons head tail ih =>
      rw [execAll]
      split
      · exact ih _
      · exact head.exec_atLine line machine

/-- A frame does not matter to the line of an error. -/
theorem inFrame_atLine (line : Nat) (body : Machine → Option Ending) (machine : Machine) :
    (inFrame body machine).map (Ending.atLine line) =
      inFrame (fun inner => (body inner).map (Ending.atLine line)) machine := by
  rw [inFrame, inFrame, Option.map_map, Option.map_map]
  rfl

/-- An error has the line of the statement that raised it, whatever it has passed on its way. -/
theorem exec_eq (statement : Stmt) (machine : Machine) :
    statement.exec allowance machine = statement.unwrapped allowance machine := by
  cases statement with
  | block span body =>
      rw [exec, unwrapped, inFrame_atLine]
      exact congrArg (inFrame · machine) (funext (execAll_atLine span.line body))
  | jump span kind => cases kind <;> rfl
  | print span arguments =>
      rw [exec, unwrapped]
      cases printedLine machine.memory arguments <;> rfl
  | «return» span value =>
      rw [exec, unwrapped]
      cases returned machine.memory value <;> rfl
  | assign span target op value =>
      have atomic := assignTo_atomic machine.memory target op value
      rw [exec, unwrapped, assigned]
      generalize assignTo machine.memory target op value = written at atomic ⊢
      rcases written with ⟨_ | fault, left⟩
      · rfl
      · cases (atomic fault rfl : left = machine.memory)
        rfl
  | branch span condition thenBranch elseBranch =>
      cases elseBranch with
      | none =>
          rw [exec, unwrapped]
          cases condition.eval machine.memory with
          | error fault => rfl
          | ok value =>
              dsimp only
              split
              · exact thenBranch.exec_atLine span.line machine
              · rfl
      | some elseBranch =>
          rw [exec, unwrapped]
          cases condition.eval machine.memory with
          | error fault => rfl
          | ok value =>
              dsimp only
              split
              · exact thenBranch.exec_atLine span.line machine
              · exact elseBranch.exec_atLine span.line machine
  | whileLoop span condition body =>
      rw [exec, unwrapped]
      exact Loop.run_atLine body.exec_lined allowance machine
  | forLoop span counter first last body =>
      rw [exec, unwrapped]
      cases bounds machine.memory first last with
      | error fault => rfl
      | ok range =>
          exact (inFrame_atLine _ _ machine).trans
            (congrArg (inFrame · machine) (funext fun _ => Loop.run_atLine body.exec_lined _ _))

end Stmt

end MatrixScript
