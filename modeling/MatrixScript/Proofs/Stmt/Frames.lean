import MatrixScript.Proofs.Stmt.Execution

/-!
# Frames on every way out of a statement

A statement can end normally, with a jump, with a return or with an error, at any depth
of blocks and loops.  On each of these ways the frames that it opened are gone again:
the number of frames is the same, and only the top frame may bind further names.

A variable without an assignment inside the statement is spared in every frame.  The
counter of a for loop is no exception: it lives in the frame of the loop.
-/

namespace MatrixScript

theorem Expr.targetName?_of_place {memory : Memory} {target : Expr} {place : Place}
    (located : target.place memory = .ok place) : target.targetName? = some place.name := by
  cases target with
  | var span name =>
      cases located
      rfl
  | reference span name coordinates =>
      rcases place_of_reference located with ⟨places, _, rfl⟩
      rfl
  | _ => cases located

namespace Loop

variable {counter name : String} {last : Int64} {body : Machine → Option Ending}

/-- The rounds of a for loop, with the counter in the top frame, spare a name below it. -/
theorem counted_spares {line allowance : Nat} {start : Machine} {ending : Ending}
    (counts : counter ∈ start.memory.top.names)
    (bodyGrows : ∀ machine ending, body machine = some ending →
      machine.memory.Grows ending.machine.memory)
    (bodySpares : ∀ machine ending, body machine = some ending →
      machine.memory.Spares ending.machine.memory name)
    (runs : runAt line (below counter last) body (step counter) allowance start = some ending) :
    ending.machine.memory.below.map (fun frame => frame.get? name) =
      start.memory.below.map (fun frame => frame.get? name) := by
  -- A round may bind more in the top frame, so the counter is still found there.
  let holds (machine : Machine) : Prop :=
    counter ∈ machine.memory.top.names ∧
      machine.memory.below.map (fun frame => frame.get? name) =
        start.memory.below.map (fun frame => frame.get? name)
  have kept : holds ending.machine := by
    apply runAt_keeps holds ?_ ?_ ⟨counts, rfl⟩ runs
    · rintro machine after ⟨present, same⟩ ended
      refine ⟨(bodyGrows machine after ended).top present, ?_⟩
      exact (bodySpares machine after ended).below.trans same
    · rintro machine next ⟨present, same⟩ stepped
      refine ⟨(step_grows stepped).top present, ?_⟩
      rcases exists_of_step stepped with ⟨current, rfl⟩
      rw [Memory.update_eq_bind present]
      exact same
  exact kept.2

end Loop

namespace Stmt

variable {allowance : Nat} {name : String}

theorem assigned_spares {memory after : Memory} {target value : Expr} {op : AssignOp}
    (untouched : target.targetName? ≠ some name)
    (done : assigned memory target op value = .ok after) : memory.Spares after name := by
  have different {place : Place} (located : target.place memory = .ok place) :
      name ≠ place.name := by
    rintro rfl
    exact untouched (Expr.targetName?_of_place located)
  cases op with
  | plain =>
      rcases assigned_plain done with ⟨place, new, located, _, inserted⟩
      exact Memory.insert_spares (different located) inserted
  | compound arith =>
      rcases assigned_compound done with
        ⟨place, _, _, combined, located, _, _, _, overwritten⟩
      exact Memory.set_spares (different located) overwritten

/-- What runs in a frame of its own spares a name that it spares below that frame. -/
theorem inFrame_spares {body : Machine → Option Ending} {machine : Machine} {ending : Ending}
    (spares : ∀ inside, body machine.enter = some inside →
      inside.machine.memory.below.map (fun frame => frame.get? name) =
        machine.memory.frames.map (fun frame => frame.get? name))
    (runs : inFrame body machine = some ending) :
    machine.memory.Spares ending.machine.memory name := by
  rcases Option.map_eq_some_iff.mp runs with ⟨inside, ended, rfl⟩
  exact Memory.map_frames_pop (spares inside ended)

theorem execAll_spares {statements : List Stmt} {machine : Machine} {ending : Ending}
    (each : ∀ statement ∈ statements, ∀ before after,
      statement.exec allowance before = some after →
        before.memory.Spares after.machine.memory name)
    (runs : execAll allowance statements machine = some ending) :
    machine.memory.Spares ending.machine.memory name := by
  induction statements generalizing machine with
  | nil =>
      cases runs
      exact .refl _ _
  | cons head tail ih =>
      rw [List.forall_mem_cons] at each
      rw [execAll] at runs
      split at runs
      · rename_i after headEnds
        exact (each.1 machine _ headEnds).trans (ih each.2 runs)
      · exact each.1 machine ending runs

/-- However a statement ends, it spares every name that it does not assign to. -/
theorem exec_spares (statement : Stmt) (machine : Machine) (ending : Ending)
    (unassigned : ¬ statement.Assigns name)
    (runs : statement.exec allowance machine = some ending) :
    machine.memory.Spares ending.machine.memory name := by
  induction statement generalizing machine ending with
  | block span body each =>
      rw [exec_eq, unwrapped] at runs
      refine inFrame_spares (fun inside ended => ?_) runs
      refine (execAll_spares (fun statement member before after => ?_) ended).below
      exact each statement member before after
        fun assigns => unassigned (assigns.mono (nodes_subset_block member))
  | jump span kind =>
      cases kind <;>
      · cases runs
        exact .refl _ _
  | print span arguments =>
      rw [exec_eq, unwrapped] at runs
      split at runs <;>
      · cases runs
        exact .refl _ _
  | «return» span value =>
      rw [exec_eq, unwrapped] at runs
      split at runs <;>
      · cases runs
        exact .refl _ _
  | assign span target op value =>
      rw [exec_eq, unwrapped] at runs
      split at runs
      · cases runs
        exact .refl _ _
      · rename_i memory done
        cases runs
        refine assigned_spares (fun isTarget => unassigned ?_) done
        exact ⟨_, self_mem_nodes _, isTarget⟩
  | branch span condition thenBranch thenSpares =>
      rw [exec_eq, unwrapped] at runs
      split at runs
      · cases runs
        exact .refl _ _
      · split at runs
        · exact thenSpares machine ending
            (fun assigns => unassigned (assigns.mono nodes_subset_branch)) runs
        · cases runs
          exact .refl _ _
  | alternative span condition thenBranch elseBranch thenSpares elseSpares =>
      rw [exec_eq, unwrapped] at runs
      split at runs
      · cases runs
        exact .refl _ _
      · split at runs
        · exact thenSpares machine ending
            (fun assigns => unassigned (assigns.mono nodes_subset_then)) runs
        · exact elseSpares machine ending
            (fun assigns => unassigned (assigns.mono nodes_subset_else)) runs
  | whileLoop span condition body bodySpares =>
      rw [exec_eq, unwrapped] at runs
      have inside : ¬ body.Assigns name :=
        fun assigns => unassigned (assigns.mono nodes_subset_while)
      apply Loop.runAt_keeps (fun current => machine.memory.Spares current.memory name) ?_ ?_
        (.refl _ _) runs
      · intro current after spared ended
        exact spared.trans (bodySpares current after inside ended)
      · rintro current next spared ⟨⟩
        exact spared
  | forLoop span counter first last body bodySpares =>
      rw [exec_eq, unwrapped] at runs
      split at runs
      · cases runs
        exact .refl _ _
      · rename_i low high bounded
        refine inFrame_spares (fun inside ended => ?_) runs
        refine Loop.counted_spares ?_ body.exec_grows (fun current after => ?_) ended
        · exact (Bindings.mem_names_insert _ _ _ _).mpr (.inl rfl)
        · exact bodySpares current after
            fun assigns => unassigned (assigns.mono nodes_subset_for)

theorem inFrame_names {body : Machine → Option Ending} {machine : Machine} {ending : Ending}
    (grows : ∀ inside, body machine.enter = some inside →
      machine.enter.memory.Grows inside.machine.memory)
    (runs : inFrame body machine = some ending) :
    ending.machine.memory.top.names = machine.memory.top.names := by
  rcases Option.map_eq_some_iff.mp runs with ⟨inside, ended, rfl⟩
  exact (List.cons.inj (Memory.map_frames_pop (grows inside ended).below)).1

theorem exec_names_of_opensScope {statement : Stmt} {machine : Machine} {ending : Ending}
    (opens : statement.OpensScope) (runs : statement.exec allowance machine = some ending) :
    ending.machine.memory.top.names = machine.memory.top.names := by
  cases statement with
  | block span body =>
      rw [exec_eq, unwrapped] at runs
      apply inFrame_names ?_ runs
      intro inside ended
      exact execAll_grows (fun statement _ => statement.exec_grows) ended
  | forLoop span counter first last body =>
      rw [exec_eq, unwrapped] at runs
      split at runs
      · cases runs
        rfl
      · apply inFrame_names ?_ runs
        intro inside ended
        exact Loop.runAt_grows body.exec_grows (fun _ _ => Loop.step_grows)
          (Memory.bind_grows _ _ _) ended
  | _ => exact opens.elim

/--
However a statement ends, it leaves as many frames as it found.  The frames below the top
bind the names they did, the top frame has lost none, and has won none either if the
statement is a block or a for loop.  What is stored under a name that no assignment
inside the statement has as its target reads as before.
-/
theorem exec_keeps_frames {statement : Stmt} {machine : Machine} {ending : Ending}
    (runs : statement.exec allowance machine = some ending) :
    ending.machine.memory.depth = machine.memory.depth ∧
      ending.machine.memory.below.map Bindings.names =
        machine.memory.below.map Bindings.names ∧
      machine.memory.top.names ⊆ ending.machine.memory.top.names ∧
      (statement.OpensScope →
        ending.machine.memory.top.names = machine.memory.top.names) ∧
      ∀ place : Place, ¬ statement.Assigns place.name →
        ending.machine.memory.get place = machine.memory.get place := by
  have grows := statement.exec_grows machine ending runs
  refine ⟨grows.depth, grows.below, grows.top, ?_, ?_⟩
  · intro opens
    exact exec_names_of_opensScope opens runs
  · intro place unassigned
    exact (statement.exec_spares machine ending unassigned runs).get

namespace Sample

/-- A variable, one that the loop below hides, and the name of its counter. -/
def outerMemory : Memory :=
  ((Memory.root.bind "x" (.int 1)).bind "y" (.int 7)).bind "i" (.array [.int 5])

/-- The statement `for k = 0 : 3 { y = i[k]; for i = 0 : 2 { y += i; x += y; } }`. -/
def failingLoop : Stmt :=
  .forLoop default ⟨"k", default⟩ (.int default 0) (.int default 3)
    (.block default
      [.assign default (.var default "y") .plain
        (.reference default ⟨"i", default⟩ [.var default "k"]),
      .forLoop default ⟨"i", default⟩ (.int default 0) (.int default 2)
        (.block default
          [.assign default (.var default "y") (.compound .add) (.var default "i"),
          .assign default (.var default "x") (.compound .add) (.var default "y")])])

end Sample

/-- The second round of the outer loop fails, after the inner loop has written outward. -/
theorem exec_keeps_frames_failingLoop :
    Sample.failingLoop.exec 4 ⟨Sample.outerMemory, .empty⟩ =
        some (.failed (.indexOutOfBounds 1 1) 0 ⟨Sample.outerMemory.bind "x" (.int 12), .empty⟩) ∧
      (Sample.outerMemory.bind "x" (.int 12)).top.names = Sample.outerMemory.top.names ∧
      (Sample.outerMemory.bind "x" (.int 12)).get (.slot "i" [0]) =
        Sample.outerMemory.get (.slot "i" [0]) := by
  have runs : Sample.failingLoop.exec 4 ⟨Sample.outerMemory, .empty⟩ =
      some (.failed (.indexOutOfBounds 1 1) 0
        ⟨Sample.outerMemory.bind "x" (.int 12), .empty⟩) := by
    rfl
  have frames := exec_keeps_frames runs
  refine ⟨runs, frames.2.2.2.1 trivial, frames.2.2.2.2 (.slot "i" [0]) ?_⟩
  simp [Sample.failingLoop, Assigns, nodes, nodesOfAll, IsAssignmentTo, Expr.targetName?,
    Place.name]

end Stmt

end MatrixScript
