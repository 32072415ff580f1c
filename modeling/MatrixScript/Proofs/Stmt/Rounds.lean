import MatrixScript.Proofs.Stmt.Frames
import MatrixScript.Proofs.Stmt.Visits

/-!
# The rounds of a for loop

The count of a for loop is an ordinary variable, and a round of the loop may change it.  If
no assignment in the body has the counter as its target, then the variable in the frame of
the loop is out of reach for the body: `Loop.Counts` is kept by every round, and the
distance to the end of the range decreases.

So the rounds begin with the counts of the range, one after the other.  If none of them
breaks off the loop, there are as many rounds as counts, and the loop ends normally.
-/

namespace MatrixScript

/-- The loop around a statement that ended like this goes on. -/
def Ending.goesOn (ending : Ending) : Bool :=
  match ending.flow with
  | .ok .normal | .ok .«continue» => true
  | _ => false

/-! ## Runs and their rounds -/

namespace Loop

/-- After a round that goes on there is another one if it can be prepared. -/
theorem next?_of_goesOn {advance : Machine → Except Fault Machine} {inside : Ending}
    (goesOn : inside.goesOn) : next? advance inside = (advance inside.machine).toOption := by
  rcases inside with ⟨error | flow, after⟩
  · cases goesOn
  · cases flow with
    | normal => rfl
    | «continue» => rfl
    | _ => cases goesOn

section Rounds

variable {line allowance : Nat} {test : Machine → Except Fault Bool}
  {body : Machine → Option Ending} {advance : Machine → Except Fault Machine}
  {machine : Machine}

/-- The rounds of a loop that ends have ended. -/
theorem rounds_end {ending : Ending}
    (runs : runAt line test body advance allowance machine = some ending) :
    ∀ inner ∈ rounds test body advance allowance machine, ∃ inside, body inner = some inside := by
  induction allowance generalizing machine with
  | zero => cases runs
  | succ allowance ih =>
      by_cases tested : test machine = .ok true
      · rcases runAt_round tested runs with ⟨inside, ended, _⟩
        cases goesOn : next? advance inside with
        | none =>
            rw [rounds_of_last tested (by rw [ended, Option.bind_some, goesOn])]
            simp [ended]
        | some next =>
            rw [runAt_of_next tested ended goesOn] at runs
            rw [rounds_of_next tested ended goesOn, List.forall_mem_cons]
            exact ⟨⟨inside, ended⟩, ih runs⟩
      · rw [rounds_of_not tested]
        simp

/--
The machine that a loop leaves: the one it began with if there was no round, and else the one
left by the last round, with the advance behind it unless that round stopped the loop.
-/
def left (body : Machine → Option Ending) (advance : Machine → Except Fault Machine)
    (start : Machine) (rounds : List Machine) : Option Machine :=
  match rounds.getLast? with
  | none => some start
  | some inner => (body inner).map fun ended => (next? advance ended).getD ended.machine

theorem left_cons {next : Machine} {inside : Ending} (ended : body machine = some inside)
    (goesOn : next? advance inside = some next) (others : List Machine) :
    left body advance machine (machine :: others) = left body advance next others := by
  cases others with
  | nil =>
      rw [left, List.getLast?_singleton]
      simp only [ended, Option.map_some, goesOn, Option.getD_some]
      rfl
  | cons inner rest =>
      rw [left, left, List.getLast?_cons_cons]
      rfl

/-- A loop that ends leaves what its last round has made of its machine. -/
theorem left_rounds {ending : Ending}
    (runs : runAt line test body advance allowance machine = some ending) :
    left body advance machine (rounds test body advance allowance machine) =
      some ending.machine := by
  induction allowance generalizing machine with
  | zero => cases runs
  | succ allowance ih =>
      by_cases tested : test machine = .ok true
      · rcases runAt_round tested runs with ⟨inside, ended, rest⟩
        cases goesOn : next? advance inside with
        | none =>
            have stopped : ending.machine = inside.machine := by
              rcases rest with last | ⟨next, prepared, _⟩
              · exact last
              · rw [goesOn] at prepared
                cases prepared
            rw [rounds_of_last tested (by rw [ended, Option.bind_some, goesOn]), left,
              List.getLast?_singleton]
            simp only [ended, Option.map_some, goesOn, Option.getD_none, stopped]
        | some next =>
            rw [runAt_of_next tested ended goesOn] at runs
            rw [rounds_of_next tested ended goesOn, left_cons ended goesOn]
            exact ih runs
      · rw [rounds_of_not tested]
        rw [runAt] at runs
        split at runs
        · cases runs
          rfl
        · cases runs
          rfl
        · rename_i holds
          exact absurd holds tested

/-- A loop executes its body in its rounds only: what the body does elsewhere is no matter. -/
theorem runAt_eq_of_rounds {other : Machine → Option Ending}
    (same : ∀ inner ∈ rounds test body advance allowance machine, other inner = body inner) :
    runAt line test other advance allowance machine =
      runAt line test body advance allowance machine := by
  induction allowance generalizing machine with
  | zero => rfl
  | succ allowance ih =>
      by_cases tested : test machine = .ok true
      · cases ended : body machine with
        | none =>
            rw [rounds_of_last tested (by rw [ended]; rfl), List.forall_mem_singleton] at same
            rw [runAt, runAt, tested, same, ended]
        | some inside =>
            cases goesOn : next? advance inside with
            | none =>
                rw [rounds_of_last tested (by rw [ended, Option.bind_some, goesOn]),
                  List.forall_mem_singleton] at same
                rcases runAt_of_last tested goesOn with ⟨ending, stops⟩
                rw [stops body allowance ended, stops other allowance (same.trans ended)]
            | some next =>
                rw [rounds_of_next tested ended goesOn, List.forall_mem_cons] at same
                rw [runAt_of_next tested ended goesOn,
                  runAt_of_next tested (same.1.trans ended) goesOn, ih same.2]
      · rw [runAt, runAt]
        split
        · rfl
        · rfl
        · rename_i holds
          exact absurd holds tested

end Rounds

end Loop

/-! ## Counting -/

/-- Below the end of a range there is room for one more. -/
theorem Int64.toInt_succ_of_lt {current last : Int64} (before : current < last) :
    (current + 1).toInt = current.toInt + 1 := by
  rw [Int64.lt_iff_toInt_lt] at before
  have low := current.le_toInt
  have high := last.toInt_lt
  rw [Int64.toInt_add, Int64.toInt_one]
  apply Int.bmod_eq_of_le <;> omega

namespace Loop

variable {counter : String} {current last : Int64} {machine : Machine}

/-- The loop whose frame is on top has this count. -/
structure Counts (counter : String) (current : Int64) (machine : Machine) : Prop where
  onTop : counter ∈ machine.memory.top.names
  holds : machine.memory.get (.var counter) = .ok (.int current)

namespace Counts

theorem of_bind (memory : Memory) (transcript : Transcript) :
    Counts counter current ⟨memory.bind counter (.int current), transcript⟩ := by
  refine ⟨(Bindings.mem_names_insert _ _ _ _).mpr (.inl rfl), ?_⟩
  rw [Memory.get, Place.name, Memory.lookup?_bind, if_pos rfl]

theorem count_eq (counts : Counts counter current machine) :
    count counter machine = .ok current := by
  rw [count, counts.holds]
  rfl

theorem below_eq (counts : Counts counter current machine) :
    below counter last machine = .ok (decide (current < last)) := by
  rw [below, counts.count_eq]
  rfl

theorem below_iff (counts : Counts counter current machine) :
    below counter last machine = .ok true ↔ current < last := by
  rw [counts.below_eq, Except.ok.injEq, decide_eq_true_iff]

/-- What keeps names and spares the counter keeps the count. -/
theorem kept {after : Machine} (counts : Counts counter current machine)
    (grows : machine.memory.Grows after.memory)
    (spares : machine.memory.Spares after.memory counter) : Counts counter current after :=
  ⟨grows.top counts.onTop, spares.get.trans counts.holds⟩

theorem step_eq (counts : Counts counter current machine) :
    ∃ next, step counter machine = .ok next ∧ Counts counter (current + 1) next := by
  refine ⟨_, by rw [step, counts.count_eq]; rfl, ?_⟩
  rw [Memory.update_eq_bind counts.onTop]
  exact of_bind _ _

/-- Behind a round that goes on the loop has the next count. -/
theorem of_next? {inside : Ending} {next : Machine} (counts : Counts counter current inside.machine)
    (goesOn : next? (step counter) inside = some next) : Counts counter (current + 1) next := by
  rcases counts.step_eq with ⟨prepared, stepped, nextCounts⟩
  rw [advance_of_next? goesOn] at stepped
  cases stepped
  exact nextCounts

/-- Behind a round that goes on the count can be raised. -/
theorem next?_of_goesOn {inside : Ending} (counts : Counts counter current inside.machine)
    (goesOn : inside.goesOn) : ∃ next, next? (step counter) inside = some next := by
  rcases counts.step_eq with ⟨next, stepped, _⟩
  rw [Loop.next?_of_goesOn goesOn, stepped]
  exact ⟨next, rfl⟩

end Counts

/-- However the body ends, the loop around it has the count it had. -/
def KeepsCount (counter : String) (body : Machine → Option Ending) : Prop :=
  ∀ current machine ending, Counts counter current machine → body machine = some ending →
    Counts counter current ending.machine

variable {line allowance : Nat} {body : Machine → Option Ending}

/-- The rounds of a for loop begin with one count after the other, all below its end. -/
theorem rounds_count (keeps : KeepsCount counter body) (counts : Counts counter current machine)
    {position : Nat} {inner : Machine}
    (found : (rounds (below counter last) body (step counter) allowance machine)[position]? =
      some inner) :
    ∃ reached, Counts counter reached inner ∧ reached.toInt = current.toInt + position ∧
      reached < last := by
  induction allowance generalizing current machine position with
  | zero => simp [rounds] at found
  | succ allowance ih =>
      by_cases before : current < last
      · have tested : below counter last machine = .ok true := counts.below_iff.mpr before
        cases goesOn : (body machine).bind (next? (step counter)) with
        | none =>
            rw [rounds_of_last tested goesOn, List.getElem?_singleton] at found
            split at found
            · rename_i first
              cases found
              exact ⟨current, counts, by simp [first], before⟩
            · cases found
        | some next =>
            rcases Option.bind_eq_some_iff.mp goesOn with ⟨inside, ended, prepared⟩
            rw [rounds_of_next tested ended prepared] at found
            cases position with
            | zero =>
                cases found
                exact ⟨current, counts, by simp, before⟩
            | succ position =>
                have nextCounts := (keeps _ _ _ counts ended).of_next? prepared
                rcases ih nextCounts found with ⟨reached, reachedCounts, value, below⟩
                refine ⟨reached, reachedCounts, ?_, below⟩
                rw [value, Int64.toInt_succ_of_lt before]
                omega
      · rw [rounds_of_not (mt counts.below_iff.mp before)] at found
        cases found

/-- A for loop whose rounds all go on has a round for every count, and ends normally. -/
theorem runAt_counted (keeps : KeepsCount counter body) (counts : Counts counter current machine)
    {ending : Ending}
    (runs : runAt line (below counter last) body (step counter) allowance machine = some ending)
    (goesOn : ∀ inner ∈ rounds (below counter last) body (step counter) allowance machine,
      ∀ inside, body inner = some inside → inside.goesOn) :
    (rounds (below counter last) body (step counter) allowance machine).length =
        (last.toInt - current.toInt).toNat ∧
      ending.flow = .ok .normal := by
  induction allowance generalizing current machine with
  | zero => cases runs
  | succ allowance ih =>
      by_cases before : current < last
      · have tested : below counter last machine = .ok true := counts.below_iff.mpr before
        rcases runAt_round tested runs with ⟨inside, ended, _⟩
        have kept := keeps _ _ _ counts ended
        have first : inside.goesOn := goesOn machine (self_mem_rounds tested) inside ended
        rcases kept.next?_of_goesOn first with ⟨next, prepared⟩
        rw [rounds_of_next tested ended prepared, List.forall_mem_cons] at goesOn
        rw [runAt_of_next tested ended prepared] at runs
        -- The rounds behind this one are a loop of their own, with one count less to go.
        rcases ih (kept.of_next? prepared) runs goesOn.2 with ⟨length, flow⟩
        refine ⟨?_, flow⟩
        rw [rounds_of_next tested ended prepared, List.length_cons, length,
          Int64.toInt_succ_of_lt before]
        rw [Int64.lt_iff_toInt_lt] at before
        omega
      · rw [runAt, counts.below_eq, decide_eq_false before] at runs
        cases runs
        rw [rounds_of_not (mt counts.below_iff.mp before)]
        rw [Int64.lt_iff_toInt_lt] at before
        refine ⟨?_, rfl⟩
        rw [List.length_nil]
        omega

/-- A for loop ends if its rounds do. -/
theorem counted_ends (keeps : KeepsCount counter body) (counts : Counts counter current machine)
    (roundsEnd : ∀ inner ∈ rounds (below counter last) body (step counter) allowance machine,
      ∃ inside, body inner = some inside)
    (enough : (last.toInt - current.toInt).toNat < allowance) :
    ∃ ending, runAt line (below counter last) body (step counter) allowance machine =
      some ending := by
  induction allowance generalizing current machine with
  | zero => exact absurd enough (Nat.not_lt_zero _)
  | succ allowance ih =>
      by_cases before : current < last
      · have tested : below counter last machine = .ok true := counts.below_iff.mpr before
        rcases roundsEnd machine (self_mem_rounds tested) with ⟨inside, ended⟩
        have kept := keeps _ _ _ counts ended
        cases goesOn : next? (step counter) inside with
        -- A round that breaks off the loop ends it too.
        | none =>
            rcases runAt_of_last tested goesOn with ⟨ending, stops⟩
            exact ⟨ending, stops body allowance ended⟩
        | some next =>
            rw [rounds_of_next tested ended goesOn, List.forall_mem_cons] at roundsEnd
            rw [runAt_of_next tested ended goesOn]
            apply ih (kept.of_next? goesOn) roundsEnd.2
            rw [Int64.toInt_succ_of_lt before]
            rw [Int64.lt_iff_toInt_lt] at before
            omega
      · rw [runAt, counts.below_eq, decide_eq_false before]
        exact ⟨_, rfl⟩

end Loop

namespace Stmt

/-- A statement that does not assign to a counter leaves the loop around it its count. -/
theorem exec_keepsCount {body : Stmt} {counter : String} {allowance : Nat}
    (untouched : ¬ body.Assigns counter) : Loop.KeepsCount counter (body.exec allowance) := by
  intro current machine ending counts ended
  exact counts.kept (body.exec_grows machine ending ended)
    (body.exec_spares machine ending untouched ended)

/-- The machines with which the rounds of a for loop with these bounds begin. -/
def forRounds (allowance : Nat) (counter : String) (low high : Int64) (body : Stmt)
    (machine : Machine) : List Machine :=
  Loop.rounds (Loop.below counter high) (body.exec allowance) (Loop.step counter) allowance
    { machine.enter with memory := machine.enter.memory.bind counter (.int low) }

/-- The machine that the rounds of such a loop leave, without the frame of the loop. -/
def forLeft (allowance : Nat) (counter : String) (low high : Int64) (body : Stmt)
    (machine : Machine) : Option Machine :=
  (Loop.left (body.exec allowance) (Loop.step counter)
    { machine.enter with memory := machine.enter.memory.bind counter (.int low) }
    (forRounds allowance counter low high body machine)).map Machine.leave

/-- The rounds count up from the lower bound, and no count wraps around. -/
structure CountUp (allowance : Nat) (counter : String) (low high : Int64) (body : Stmt)
    (rounds : List Machine) : Prop where
  begins : ∀ (position : Nat) (inner : Machine), rounds[position]? = some inner →
    ∃ current : Int64, inner.memory.get (.var counter) = .ok (.int current) ∧
      current.toInt = low.toInt + position ∧ low.toInt + position < high.toInt
  steps : ∀ (position : Nat) (inner : Machine) (ended : Ending), rounds[position]? = some inner →
    body.exec allowance inner = some ended → ended.goesOn →
    ∃ (current : Int64) (next : Machine), current.toInt = low.toInt + position ∧
      Loop.count counter ended.machine = .ok current ∧
      Loop.step counter ended.machine = .ok next ∧
      Loop.count counter next = .ok (current + 1) ∧ (current + 1).toInt = current.toInt + 1

section ForLoops

variable {counter : Located String} {first last : Expr} {body : Stmt} {machine : Machine}
  {low high : Int64} {allowance : Nat}

theorem forRounds_countUp (untouched : ¬ body.Assigns counter.item) :
    CountUp allowance counter.item low high body
      (forRounds allowance counter.item low high body machine) := by
  have keeps : Loop.KeepsCount counter.item (body.exec allowance) := exec_keepsCount untouched
  constructor
  · intro position inner found
    rcases Loop.rounds_count keeps (Loop.Counts.of_bind _ _) found with
      ⟨current, counts, value, below⟩
    refine ⟨current, counts.holds, value, ?_⟩
    rwa [Int64.lt_iff_toInt_lt, value] at below
  · intro position inner ended found ends goesOn
    rcases Loop.rounds_count keeps (Loop.Counts.of_bind _ _) found with
      ⟨current, counts, value, below⟩
    have kept := keeps _ _ _ counts ends
    rcases kept.step_eq with ⟨next, stepped, nextCounts⟩
    exact ⟨current, next, value, kept.count_eq, stepped, nextCounts.count_eq,
      Int64.toInt_succ_of_lt below⟩

theorem exec_forLoop_of_bounds
    (bounded : bounds machine.memory first last = .ok (low, high)) (span : Span) :
    (Stmt.forLoop span counter first last body).exec allowance machine =
      (Loop.runAt span.line (Loop.below counter.item high) (body.exec allowance)
        (Loop.step counter.item) allowance
        { machine.enter with memory := machine.enter.memory.bind counter.item (.int low) }).map
        fun ending => { ending with machine := ending.machine.leave } := by
  rw [exec_eq, unwrapped]
  simp only [bounded]
  rfl

/--
If its body does not assign to the counter, a for loop executes the body in rounds that
begin with the counts from the lower bound on, below the upper bound, and leaves the machine
of the last round.  If no round breaks off the loop, there is a round for every count, and
the loop ends normally.
-/
theorem forLoop_counts_up (untouched : ¬ body.Assigns counter.item)
    (bounded : bounds machine.memory first last = .ok (low, high)) (span : Span)
    (allowance : Nat) :
    CountUp allowance counter.item low high body
        (forRounds allowance counter.item low high body machine) ∧
      (∀ other : Stmt,
        (∀ inner ∈ forRounds allowance counter.item low high body machine,
          other.exec allowance inner = body.exec allowance inner) →
        (Stmt.forLoop span counter first last other).exec allowance machine =
          (Stmt.forLoop span counter first last body).exec allowance machine) ∧
      (∀ ending, (Stmt.forLoop span counter first last body).exec allowance machine =
          some ending →
        (∀ inner ∈ forRounds allowance counter.item low high body machine,
          ∃ ended, body.exec allowance inner = some ended) ∧
        forLeft allowance counter.item low high body machine = some ending.machine ∧
        ((∀ inner ∈ forRounds allowance counter.item low high body machine,
            ∀ ended, body.exec allowance inner = some ended → ended.goesOn) →
          (forRounds allowance counter.item low high body machine).length =
              (high.toInt - low.toInt).toNat ∧
            ending.flow = .ok .normal)) ∧
      ((∀ inner ∈ forRounds allowance counter.item low high body machine,
          ∃ ended, body.exec allowance inner = some ended) →
        (high.toInt - low.toInt).toNat < allowance →
        ∃ ending, (Stmt.forLoop span counter first last body).exec allowance machine =
          some ending) := by
  have keeps : Loop.KeepsCount counter.item (body.exec allowance) := exec_keepsCount untouched
  refine ⟨forRounds_countUp untouched, ?_, ?_, ?_⟩
  · intro other same
    rw [exec_forLoop_of_bounds bounded, exec_forLoop_of_bounds bounded,
      Loop.runAt_eq_of_rounds same]
  · intro ending runs
    rw [exec_forLoop_of_bounds bounded] at runs
    rcases Option.map_eq_some_iff.mp runs with ⟨inside, ran, rfl⟩
    refine ⟨Loop.rounds_end ran, ?_, ?_⟩
    · rw [forLeft, forRounds, Loop.left_rounds ran]
      rfl
    · intro goesOn
      have counted := Loop.runAt_counted keeps (Loop.Counts.of_bind _ _) ran goesOn
      exact counted
  · intro roundsEnd enough
    rcases Loop.counted_ends keeps (Loop.Counts.of_bind _ _) roundsEnd enough with
      ⟨ending, ran⟩
    rw [exec_forLoop_of_bounds bounded, ran]
    exact ⟨_, rfl⟩

end ForLoops

/-- The block `{ for i = 0 : 3 { y = i; } continue; }`. -/
def Sample.recounting : Stmt :=
  .block default
    [.forLoop default ⟨"i", default⟩ (.int default 0) (.int default 3)
      (.block default [.assign default (.var default "y") .plain (.var default "i")]),
    .jump default .«continue»]

/-- A loop up to the greatest integer, with a loop inside that has the same counter. -/
theorem forLoop_counts_up_recounting :
    ¬ Sample.recounting.Assigns "i" ∧
      bounds Memory.root (.int default (Int64.maxValue - 2)) (.int default Int64.maxValue) =
        .ok (Int64.maxValue - 2, Int64.maxValue) ∧
      ∃ ending,
        (Stmt.forLoop default ⟨"i", default⟩ (.int default (Int64.maxValue - 2))
          (.int default Int64.maxValue) Sample.recounting).exec 9 ⟨.root, .empty⟩ =
            some ending ∧
        (forRounds 9 "i" (Int64.maxValue - 2) Int64.maxValue Sample.recounting
          ⟨.root, .empty⟩).length = 2 ∧
        ending.flow = .ok .normal ∧
        forLeft 9 "i" (Int64.maxValue - 2) Int64.maxValue Sample.recounting ⟨.root, .empty⟩ =
          some ending.machine := by
  have untouched : ¬ Sample.recounting.Assigns "i" := by
    simp [Sample.recounting, Assigns, nodes, nodesOfAll, IsAssignmentTo, Expr.targetName?]
  have goOn : (forRounds 9 "i" (Int64.maxValue - 2) Int64.maxValue Sample.recounting
      ⟨.root, .empty⟩).all
        (fun inner => (Sample.recounting.exec 9 inner).any Ending.goesOn) = true := rfl
  rcases @forLoop_counts_up ⟨"i", default⟩ (.int default (Int64.maxValue - 2))
    (.int default Int64.maxValue) Sample.recounting ⟨.root, .empty⟩ (Int64.maxValue - 2)
    Int64.maxValue untouched rfl default 9 with ⟨_, _, complete, ends⟩
  rw [List.all_eq_true] at goOn
  have roundsEnd : ∀ inner ∈ forRounds 9 "i" (Int64.maxValue - 2) Int64.maxValue
      Sample.recounting ⟨.root, .empty⟩, ∃ ended, Sample.recounting.exec 9 inner = some ended := by
    intro inner member
    rcases (Option.any_eq_true _ _).mp (goOn inner member) with ⟨ended, body, _⟩
    exact ⟨ended, body⟩
  rcases ends roundsEnd (by decide) with ⟨ending, runs⟩
  rcases complete ending runs with ⟨_, leaves, counted⟩
  have counts := counted fun inner member ended body => by
    have goesOn := goOn inner member
    rw [body] at goesOn
    exact goesOn
  exact ⟨untouched, rfl, ending, runs, counts.1, counts.2, leaves⟩

end Stmt

end MatrixScript
