import MatrixScript.Session
import MatrixScript.Proofs.Checker
import MatrixScript.Proofs.Stmt.Declaring

/-!
# Sessions, line after line

A line that is fed to a session can be no program, can be rejected by the checker, can fail
while it runs, or can run to its end.  `Session.Fed` says what the session is afterwards,
and `Session.Course` puts the steps of a session in order, the latest first.

Between two lines a session is settled.  The machine has a single frame and the checker a
single scope, no diagnostic is left over, and every variable is declared.

The checker resolves the names that some line declared, and memory has a value for those to
which a plain assignment, outside blocks and for loops, was completed in some line.  So a
name that is resolved may still want a value: its assignments stand in branches and while
loops that were not run, or behind the end of a run that returned or failed.  It wants a
value until the first of its assignments is completed, and no longer.
-/

namespace MatrixScript

/-- The reply to a line that was run. -/
def Reply.ofResult : Except RuntimeError (Option Value) → Reply
  | .ok value => .done value
  | .error error => .failed error

/-- The line was not run. -/
def Reply.Refuses : Reply → Prop
  | .malformed _ | .rejected _ => True
  | .done _ | .failed _ => False

theorem Reply.not_refuses_ofResult (result : Except RuntimeError (Option Value)) :
    ¬ (ofResult result).Refuses := by
  intro refuses
  cases result with
  | error error => exact refuses
  | ok value => exact refuses

namespace Session

/-! ## One line -/

/-- What a line does to a session, and the reply to it. -/
inductive Fed (allowance : Nat) (session : Session) (line : String) : Reply → Session → Prop where
  | malformed {error : SourceError} (parses : Program.parse line = .error error) :
      Fed allowance session line (.malformed error) session
  | rejected {program : Program} (parses : Program.parse line = .ok program)
      (rejects : (session.checker.checkProgram program).1 = false) :
      Fed allowance session line (.rejected (session.checker.checkProgram program).2.diagnostics)
        { session with checker := { session.checker with diagnostics := [] } }
  | ran {program : Program} {ending : Ending} {reply : Reply}
      (parses : Program.parse line = .ok program)
      (accepts : (session.checker.checkProgram program).1 = true)
      (runs : Stmt.execAll allowance program.body session.machine = some ending)
      (replies : reply = .ofResult (Program.conclude ending).result) :
      Fed allowance session line reply
        ⟨{ Stmt.checkAll program.body session.checker with diagnostics := [] }, ending.machine⟩

variable {allowance : Nat} {session next : Session} {line : String} {reply : Reply}

theorem fed_of_runAccepted {program : Program} (parses : Program.parse line = .ok program)
    (accepts : (session.checker.checkProgram program).1 = true)
    (feeds : runAccepted allowance (session.checker.checkProgram program).2.takeDiagnostics.2
      session.machine program = some (reply, next)) :
    Fed allowance session line reply next := by
  rcases Option.map_eq_some_iff.mp feeds with ⟨run, ends, same⟩
  rcases Option.map_eq_some_iff.mp ends with ⟨ending, runs, rfl⟩
  have replies : reply = .ofResult (Program.conclude ending).result := by
    rw [← (Prod.mk.inj same).1]
    cases (Program.conclude ending).result <;> rfl
  rw [← (Prod.mk.inj same).2, Program.conclude_machine]
  exact .ran parses accepts runs replies

theorem fed_of_feed (feeds : session.feed allowance line = some (reply, next)) :
    Fed allowance session line reply next := by
  unfold feed at feeds
  split at feeds
  · rename_i error parses
    cases feeds
    exact .malformed parses
  · rename_i program parses
    unfold feedProgram at feeds
    cases checked : (session.checker.checkProgram program).1 with
    | false =>
        have loops := (session.checker.checkProgram_extends program).loopDepth
        rw [Checker.checkIncremental_of_rejected checked] at feeds
        dsimp only [Checker.takeDiagnostics] at feeds
        rw [loops] at feeds
        cases feeds
        exact .rejected parses checked
    | true =>
        rw [Checker.checkIncremental_of_accepted checked] at feeds
        exact fed_of_runAccepted parses checked feeds

/-! ## Between two lines -/

/-- The checker and the machine are back at the outermost level, and agree on the names. -/
structure Settled (session : Session) : Prop where
  frames : session.machine.memory.below = []
  scopes : session.checker.chain.outer = []
  loopDepth : session.checker.loopDepth = 0
  diagnostics : session.checker.diagnostics = []
  proper : session.checker.chain.Formed fun _ => True
  declared : ∀ name ∈ session.machine.memory.top.names, (session.checker.lookup? name).isSome

theorem start_settled : start.Settled where
  frames := rfl
  scopes := rfl
  loopDepth := rfl
  diagnostics := rfl
  proper := by
    intro name descriptor found
    cases found
  declared := by
    intro name member
    cases member

/-- Where nothing was found before, an accepted program is clean. -/
theorem Settled.clean (settled : session.Settled) {program : Program}
    (accepts : (session.checker.checkProgram program).1 = true) :
    (Stmt.checkAll program.body session.checker).diagnostics = [] :=
  ((session.checker.checkProgram_iff program).mp accepts).trans settled.diagnostics

/-- A line that was not run leaves a settled session as it was. -/
theorem Fed.unchanged (fed : Fed allowance session line reply next) (settled : session.Settled)
    (refuses : reply.Refuses) : next = session := by
  cases fed with
  | malformed parses => rfl
  | rejected parses rejects =>
      have same : { session.checker with diagnostics := [] } = session.checker :=
        congrArg (Checker.mk session.checker.chain session.checker.loopDepth)
          settled.diagnostics.symm
      rw [same]
  | ran parses accepts runs replies =>
      rw [replies] at refuses
      exact absurd refuses (Reply.not_refuses_ofResult _)

/-- Every line leaves a settled session settled. -/
theorem Fed.settled (fed : Fed allowance session line reply next) (settled : session.Settled) :
    next.Settled := by
  cases fed with
  | malformed parses => exact settled
  | rejected parses rejects =>
      exact ⟨settled.frames, settled.scopes, settled.loopDepth, rfl, settled.proper,
        settled.declared⟩
  | @ran program ending _ parses accepts runs replies =>
      have clean := settled.clean accepts
      have checks := session.checker.checkProgram_extends program
      have grows := Stmt.execAll_grows (fun statement _ => statement.exec_grows) runs
      constructor
      · have names := grows.below
        rw [settled.frames] at names
        exact List.map_eq_nil_iff.mp names
      · exact checks.scope.outer.trans settled.scopes
      · exact checks.loopDepth.trans settled.loopDepth
      · rfl
      · exact Stmt.checkAll_proper settled.proper clean
      · intro name bound
        apply (Stmt.checkAll_visible_iff settled.proper clean).mpr
        rcases (Stmt.execAll_bound_iff (Program.parse_indexed parses) runs).mp bound with
          earlier | completes
        · exact .inl (settled.declared name earlier)
        · exact .inr completes.reaches

/-- A line that was fed to a session. -/
structure Step where
  before : Session
  allowance : Nat
  line : String

/-- The steps by which a session came about from its start, the latest first. -/
inductive Course : List Step → Session → Prop where
  | start : Course [] start
  | feed {steps : List Step} {session next : Session} {allowance : Nat} {line : String}
      {reply : Reply} (course : Course steps session)
      (feeds : session.feed allowance line = some (reply, next)) :
      Course (⟨session, allowance, line⟩ :: steps) next

theorem Course.settled {steps : List Step} (course : Course steps session) : session.Settled := by
  induction course with
  | start => exact start_settled
  | feed course feeds ih => exact (fed_of_feed feeds).settled ih

/--
Whatever lines were fed to a session, and whatever became of them: memory has one frame, the
checker is in its root scope, in no loop and without diagnostics, no name has an undefined
descriptor, and every variable that can be read is declared.  And the next line changes
nothing at all if it is not run.
-/
theorem between_lines {steps : List Step} (course : Course steps session) :
    session.machine.memory.depth = 1 ∧
      session.checker.chain.outer = [] ∧
      session.checker.loopDepth = 0 ∧
      session.checker.diagnostics = [] ∧
      (∀ name descriptor, session.checker.lookup? name = some descriptor →
        descriptor.isUndefined = false) ∧
      (∀ entry ∈ session.machine.memory.visible, (session.checker.lookup? entry.1).isSome) ∧
      ∀ allowance line reply next, session.feed allowance line = some (reply, next) →
        reply.Refuses → next = session := by
  have settled := course.settled
  refine ⟨?_, settled.scopes, settled.loopDepth, settled.diagnostics, ?_, ?_, ?_⟩
  · exact congrArg (fun below => below.length + 1) settled.frames
  · intro name descriptor found
    exact (settled.proper name descriptor found).isUndefined_eq
  · intro entry member
    have bound := (Memory.mem_visible_iff _ _).mp (List.mem_map_of_mem member)
    rw [Memory.isSome_lookup?_iff, settled.frames] at bound
    rcases bound with inTop | ⟨names, inBelow, _⟩
    · exact settled.declared entry.1 inTop
    · cases inBelow
  · intro allowance line reply next feeds refuses
    exact (fed_of_feed feeds).unchanged settled refuses

/-- The session after some lines, if each of them ends. -/
def play (allowance : Nat) : List String → Session → Option Session
  | [], session => some session
  | line :: rest, session =>
      match session.feed allowance line with
      | some (_, next) => play allowance rest next
      | none => none

theorem Course.play {steps : List Step} {lines : List String} {last : Session}
    (course : Course steps session) (plays : Session.play allowance lines session = some last) :
    ∃ more, Course (more ++ steps) last := by
  induction lines generalizing session steps with
  | nil =>
      cases plays
      exact ⟨[], course⟩
  | cons line rest ih =>
      rw [Session.play] at plays
      split at plays
      · rename_i reply next feeds
        rcases ih (course.feed feeds) plays with ⟨more, extended⟩
        exact ⟨more ++ [⟨session, allowance, line⟩], by rwa [List.append_assoc]⟩
      · cases plays

/-- One of the lines runs to its end, one is no program, one is rejected and the last one fails. -/
def Sample.mixed : List String :=
  ["x = 1;", "y = ;", "x = [1]; y = z;", "y = 3; z = zeros(-1);"]

/-- The failed line has bound `y`, and the rejected one has left `x` a number. -/
theorem between_lines_mixed :
    ∃ steps session, Course steps session ∧ play 1 Sample.mixed start = some session ∧
      session.machine.memory.visible.map Prod.fst = ["x", "y"] ∧
      (session.checker.lookup? "x").map Descriptor.ty = some .int ∧
      session.machine.memory.depth = 1 ∧
      ∀ entry ∈ session.machine.memory.visible, (session.checker.lookup? entry.1).isSome := by
  have played : (play 1 Sample.mixed start).map (fun session =>
      (session.machine.memory.visible.map Prod.fst,
        (session.checker.lookup? "x").map Descriptor.ty)) = some (["x", "y"], some .int) := by
    decide +kernel
  rcases Option.map_eq_some_iff.mp played with ⟨session, plays, same⟩
  rcases Course.start.play plays with ⟨steps, course⟩
  have invariant := between_lines course
  exact ⟨_, session, course, plays, (Prod.mk.inj same).1, (Prod.mk.inj same).2, invariant.1,
    invariant.2.2.2.2.2.1⟩

/-! ## Names without a value -/

theorem Settled.isSome_lookup?_iff (settled : session.Settled) (name : String) :
    (session.machine.memory.lookup? name).isSome ↔ name ∈ session.machine.memory.top.names := by
  rw [Memory.isSome_lookup?_iff, settled.frames]
  simp

namespace Step

/-- The line of the step is the program, and the checker accepted it, so that it was run. -/
def Runs (step : Step) (program : Program) : Prop :=
  Program.parse step.line = .ok program ∧ (step.before.checker.checkProgram program).1 = true

/-- The line has a plain assignment to the name, outside blocks and for loops. -/
def Declares (step : Step) (name : String) : Prop :=
  ∃ program, step.Runs program ∧ ∃ statement ∈ program.body, statement.Reaches name

/-- The run of the line completed a plain assignment to the name, outside blocks and for loops. -/
def Completes (step : Step) (name : String) : Prop :=
  ∃ program, step.Runs program ∧
    Stmt.CompletesIn name step.allowance program.body step.before.machine

theorem runs_iff {step : Step} {program other : Program} (runs : step.Runs program) :
    step.Runs other ↔ other = program := by
  constructor
  · rintro ⟨parsed, _⟩
    rw [runs.1] at parsed
    cases parsed
    rfl
  · rintro rfl
    exact runs

end Step

/-- A line that is refused runs no program. -/
theorem Fed.not_runs (fed : Fed allowance session line reply next) (refuses : reply.Refuses)
    (program : Program) : ¬ Step.Runs ⟨session, allowance, line⟩ program := by
  rintro ⟨parsed, accepted⟩
  cases fed with
  | malformed parses =>
      rw [show Program.parse line = _ from parses] at parsed
      cases parsed
  | rejected parses rejects =>
      rw [show Program.parse line = _ from parses] at parsed
      cases parsed
      rw [show (session.checker.checkProgram _).1 = _ from rejects] at accepted
      cases accepted
  | ran parses accepts runs replies =>
      rw [replies] at refuses
      exact Reply.not_refuses_ofResult _ refuses

variable {name : String}

/-- A line adds the names that it declares to those that the checker resolves. -/
theorem Fed.resolved_iff (fed : Fed allowance session line reply next)
    (settled : session.Settled) :
    (next.checker.lookup? name).isSome ↔
      Step.Declares ⟨session, allowance, line⟩ name ∨ (session.checker.lookup? name).isSome := by
  by_cases refuses : reply.Refuses
  · rw [fed.unchanged settled refuses]
    refine ⟨.inr, fun either => either.resolve_left ?_⟩
    rintro ⟨program, runs, _⟩
    exact fed.not_runs refuses program runs
  · cases fed with
    | malformed parses => exact absurd trivial refuses
    | rejected parses rejects => exact absurd trivial refuses
    | @ran program ending _ parses accepts runs replies =>
        have ranProgram : Step.Runs ⟨session, allowance, line⟩ program := ⟨parses, accepts⟩
        have declares : Step.Declares ⟨session, allowance, line⟩ name ↔
            ∃ statement ∈ program.body, statement.Reaches name := by
          simp [Step.Declares, Step.runs_iff ranProgram]
        rw [declares, or_comm]
        exact Stmt.checkAll_visible_iff settled.proper (settled.clean accepts)

/-- A line adds the names that it completes to those that have a value. -/
theorem Fed.bound_iff (fed : Fed allowance session line reply next)
    (settled : session.Settled) :
    (next.machine.memory.lookup? name).isSome ↔
      Step.Completes ⟨session, allowance, line⟩ name ∨
        (session.machine.memory.lookup? name).isSome := by
  have nextSettled := fed.settled settled
  by_cases refuses : reply.Refuses
  · rw [fed.unchanged settled refuses]
    refine ⟨.inr, fun either => either.resolve_left ?_⟩
    rintro ⟨program, runs, _⟩
    exact fed.not_runs refuses program runs
  · cases fed with
    | malformed parses => exact absurd trivial refuses
    | rejected parses rejects => exact absurd trivial refuses
    | @ran program ending _ parses accepts runs replies =>
        have ranProgram : Step.Runs ⟨session, allowance, line⟩ program := ⟨parses, accepts⟩
        have completes : Step.Completes ⟨session, allowance, line⟩ name ↔
            Stmt.CompletesIn name allowance program.body session.machine := by
          simp [Step.Completes, Step.runs_iff ranProgram]
        rw [completes, or_comm, nextSettled.isSome_lookup?_iff, settled.isSome_lookup?_iff]
        exact Stmt.execAll_bound_iff (Program.parse_indexed parses) runs

/-- The checker of a session resolves the names that some line declared. -/
theorem Course.resolved_iff {steps : List Step} (course : Course steps session) :
    (session.checker.lookup? name).isSome ↔ ∃ step ∈ steps, step.Declares name := by
  induction course with
  | start =>
      constructor
      · intro found
        cases found
      · rintro ⟨step, member, _⟩
        cases member
  | feed course feeds ih =>
      rw [(fed_of_feed feeds).resolved_iff course.settled, ih, List.exists_mem_cons_iff]

/-- Memory has a value for the names that some line completed. -/
theorem Course.bound_iff {steps : List Step} (course : Course steps session) :
    (session.machine.memory.lookup? name).isSome ↔ ∃ step ∈ steps, step.Completes name := by
  induction course with
  | start =>
      constructor
      · intro found
        cases found
      · rintro ⟨step, member, _⟩
        cases member
  | feed course feeds ih =>
      rw [(fed_of_feed feeds).bound_iff course.settled, ih, List.exists_mem_cons_iff]

/-- A line that fails for want of a name leaves the name without a value. -/
theorem Fed.unbound {error : RuntimeError}
    (fed : Fed allowance session line (.failed error) next)
    (fails : error.fault = .undefinedVariable name) :
    next.machine.memory.lookup? name = none := by
  cases fed with
  | @ran program ending _ parses accepts runs replies =>
      rcases ending with ⟨failure | flow, machine⟩
      · cases replies
        exact Stmt.execAll_unbound runs fails
      · cases flow <;> cases replies

/-- A line fails for want of a covered name only if it declares the name under a condition. -/
theorem Fed.failed {name : String} {error : RuntimeError}
    (fed : Fed allowance session line (.failed error) next) (settled : session.Settled)
    (covers : session.machine.memory.Covers session.checker.chain name)
    (fails : error.fault = .undefinedVariable name) :
    ∃ program, Program.parse line = .ok program ∧
      ∃ node ∈ program.nodes, node.DeclaresConditionally name := by
  cases fed with
  | @ran program ending _ parses accepts runs replies =>
      refine ⟨program, parses, Classical.byContradiction fun unconditional => ?_⟩
      have respects : ∀ statement ∈ program.body, statement.Respects name allowance := by
        intro statement member
        apply Stmt.exec_respects
        intro node found conditional
        exact unconditional
          ⟨node, Stmt.nodes_subset_nodesOfAll member found, conditional⟩
      have finds := (Stmt.execAll_covers respects session.checker settled.proper
        (settled.clean accepts) covers runs).finds
      rcases ending with ⟨_ | (_ | _ | _ | _), machine⟩
      · cases replies
        exact finds _ rfl fails
      all_goals cases replies

/--
Every name that the checker of a session resolves has a value, unless in no line so far a
plain assignment to it was completed outside blocks and for loops.  The names that are
resolved are those declared by such an assignment in some line, and the names with a value
are those for which one was completed.

So the next line fails for want of a name only if no assignment to the name was completed, in
that line or before, and if an earlier line declared the name, or the line itself does so in
a branch or a while loop.
-/
theorem bound_once_completed {steps : List Step} (course : Course steps session) (name : String) :
    ((session.checker.lookup? name).isSome →
        (session.machine.memory.lookup? name).isSome ∨ ∀ step ∈ steps, ¬ step.Completes name) ∧
      ((session.checker.lookup? name).isSome ↔ ∃ step ∈ steps, step.Declares name) ∧
      ((session.machine.memory.lookup? name).isSome ↔ ∃ step ∈ steps, step.Completes name) ∧
      ∀ allowance line error next,
        session.feed allowance line = some (.failed error, next) →
        error.fault = .undefinedVariable name →
          (∀ step ∈ ⟨session, allowance, line⟩ :: steps, ¬ step.Completes name) ∧
            ((∃ step ∈ steps, step.Declares name) ∨
              ∃ program, Program.parse line = .ok program ∧
                ∃ node ∈ program.nodes, node.DeclaresConditionally name) := by
  refine ⟨?_, course.resolved_iff, course.bound_iff, ?_⟩
  · intro _
    rw [course.bound_iff]
    by_cases completed : ∃ step ∈ steps, step.Completes name
    · exact .inl completed
    · exact .inr fun step member completes => completed ⟨step, member, completes⟩
  · intro allowance line error next feeds fails
    have fed := fed_of_feed feeds
    constructor
    · intro step member completes
      have bound := (course.feed feeds).bound_iff.mpr ⟨step, member, completes⟩
      rw [fed.unbound fails] at bound
      cases bound
    · by_cases resolved : (session.checker.lookup? name).isSome
      · exact .inl (course.resolved_iff.mp resolved)
      · -- A name that the checker does not resolve is covered, whatever memory has.
        exact .inr (fed.failed course.settled (fun visible => absurd visible resolved) fails)

/-- After the lines, the checker resolves the name and memory has no value for it. -/
def LeaveUnbound (lines : List String) (name : String) : Prop :=
  ∃ steps session, Course steps session ∧ play 1 lines start = some session ∧
    (session.checker.lookup? name).isSome ∧ session.machine.memory.lookup? name = none

theorem leaveUnbound_of_play {lines : List String} {name : String}
    (played : (play 1 lines start).map (fun session =>
      ((session.checker.lookup? name).isSome, (session.machine.memory.lookup? name).isNone)) =
        some (true, true)) : LeaveUnbound lines name := by
  rcases Option.map_eq_some_iff.mp played with ⟨session, plays, same⟩
  rcases Course.start.play plays with ⟨steps, course⟩
  exact ⟨_, session, course, plays, (Prod.mk.inj same).1,
    Option.isNone_iff_eq_none.mp (Prod.mk.inj same).2⟩

/-- The branch of the first line is run; the return keeps the second from binding `z`. -/
def Sample.returning : List String :=
  ["if (1) x = 1;", "if (x) return; z = x;", "print z;"]

theorem bound_once_completed_returning :
    ∃ steps session, Course steps session ∧ play 1 Sample.returning start = some session ∧
      session.machine.memory.lookup? "z" = none ∧ (∃ step ∈ steps, step.Declares "z") ∧
      (∀ step ∈ steps, ¬ step.Completes "z") ∧ ∃ step ∈ steps, step.Completes "x" := by
  have leaves : LeaveUnbound Sample.returning "z" := leaveUnbound_of_play (by decide +kernel)
  have binds : (play 1 Sample.returning start).map (fun session =>
      (session.machine.memory.lookup? "x").isSome) = some true := by
    decide +kernel
  rcases leaves with ⟨steps, session, course, plays, resolved, unbound⟩
  rw [plays, Option.map_some, Option.some.injEq] at binds
  have names := bound_once_completed course "z"
  refine ⟨steps, session, course, plays, unbound, names.2.1.mp resolved, ?_, ?_⟩
  · refine (names.1 resolved).resolve_left ?_
    rw [unbound]
    exact Bool.false_ne_true
  · exact (bound_once_completed course "x").2.2.1.mp binds

/-- A branch that is not taken and a return each leave a resolved name unbound. -/
theorem resolved_without_value :
    LeaveUnbound ["if (0) x = 1;"] "x" ∧ LeaveUnbound ["return; x = 1;"] "x" := by
  refine ⟨leaveUnbound_of_play ?_, leaveUnbound_of_play ?_⟩
  · decide +kernel
  · decide +kernel

end Session

end MatrixScript
