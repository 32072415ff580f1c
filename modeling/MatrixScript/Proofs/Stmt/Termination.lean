import MatrixScript.Proofs.Stmt.Rounds

/-!
# Programs that end

A for loop whose rounds end does so itself, if its body leaves the counter alone.  So a
program without while loops ends, if its for loops leave their counters alone.  As the
counts are words of 64 bits, one allowance of rounds is enough for all of these programs.
A greater allowance does not change how a program ends.
-/

namespace MatrixScript

/-! ## Greater allowances -/

theorem Loop.runAt_extends {line allowance greater : Nat} {test : Machine → Except Fault Bool}
    {body more : Machine → Option Ending} {advance : Machine → Except Fault Machine}
    (bodyExtends : ∀ machine ending, body machine = some ending → more machine = some ending)
    (enough : allowance ≤ greater) {machine : Machine} {ending : Ending}
    (runs : runAt line test body advance allowance machine = some ending) :
    runAt line test more advance greater machine = some ending := by
  induction allowance generalizing greater machine with
  | zero => cases runs
  | succ allowance ih =>
      rcases Nat.exists_eq_add_of_lt enough with ⟨extra, rfl⟩
      rw [runAt] at runs ⊢
      split at runs
      · exact runs
      · exact runs
      · split at runs
        · cases runs
        · rename_i ended
          rw [bodyExtends _ _ ended]
          exact runs
        · rename_i ended
          rw [bodyExtends _ _ ended]
          exact runs
        · rename_i ended
          rw [bodyExtends _ _ ended]
          exact runs
        · rename_i flow after notBreak notReturn ended
          rw [bodyExtends _ _ ended]
          split at runs
          · rename_i blocked
            simp only [blocked]
            exact runs
          · rename_i next advanced
            simp only [advanced]
            exact ih (Nat.le_add_right _ _) runs

namespace Stmt

theorem inFrame_extends {body more : Machine → Option Ending} {machine : Machine}
    {ending : Ending}
    (bodyExtends : ∀ machine ending, body machine = some ending → more machine = some ending)
    (runs : inFrame body machine = some ending) : inFrame more machine = some ending := by
  rcases Option.map_eq_some_iff.mp runs with ⟨inside, ended, rfl⟩
  rw [inFrame, bodyExtends _ _ ended]
  rfl

theorem execAll_extends {allowance greater : Nat} {statements : List Stmt} {machine : Machine}
    {ending : Ending}
    (each : ∀ statement ∈ statements, ∀ before after,
      statement.exec allowance before = some after → statement.exec greater before = some after)
    (runs : execAll allowance statements machine = some ending) :
    execAll greater statements machine = some ending := by
  induction statements generalizing machine with
  | nil => exact runs
  | cons head tail ih =>
      rw [List.forall_mem_cons] at each
      rw [execAll] at runs ⊢
      split at runs
      · rename_i after headEnds
        rw [each.1 _ _ headEnds]
        exact ih each.2 runs
      · rename_i stopped
        rw [each.1 _ _ runs]
        split
        · rename_i after same
          cases same
          exact (stopped _ runs).elim
        · rfl

/-- A statement that ends does so in the same way with a greater allowance. -/
theorem exec_extends {allowance greater : Nat} (enough : allowance ≤ greater)
    (statement : Stmt) (machine : Machine) (ending : Ending)
    (runs : statement.exec allowance machine = some ending) :
    statement.exec greater machine = some ending := by
  induction statement generalizing machine ending with
  | block span body each =>
      rw [exec_eq, unwrapped] at runs ⊢
      exact inFrame_extends (fun _ _ => execAll_extends each) runs
  | jump span kind => cases kind <;> exact runs
  | print span arguments => exact runs
  | «return» span value => exact runs
  | assign span target op value => exact runs
  | branch span condition thenBranch thenExtends =>
      rw [exec_eq, unwrapped] at runs ⊢
      split at runs
      · exact runs
      · split at runs
        · rename_i holds
          rw [if_pos holds]
          exact thenExtends machine ending runs
        · rename_i fails
          rw [if_neg fails]
          exact runs
  | alternative span condition thenBranch elseBranch thenExtends elseExtends =>
      rw [exec_eq, unwrapped] at runs ⊢
      split at runs
      · exact runs
      · split at runs
        · rename_i holds
          rw [if_pos holds]
          exact thenExtends machine ending runs
        · rename_i fails
          rw [if_neg fails]
          exact elseExtends machine ending runs
  | whileLoop span condition body bodyExtends =>
      rw [exec_eq, unwrapped] at runs ⊢
      exact Loop.runAt_extends bodyExtends enough runs
  | forLoop span counter first last body bodyExtends =>
      rw [exec_eq, unwrapped] at runs ⊢
      split at runs
      · exact runs
      · exact inFrame_extends (fun _ _ => Loop.runAt_extends bodyExtends enough) runs

end Stmt

/-! ## As many rounds as there are counts -/

namespace Loop

/-- As many rounds as there are counts. -/
def countLimit : Nat := Nat.pow 2 64

theorem range_lt_countLimit (first last : Int64) :
    (last.toInt - first.toInt).toNat < countLimit := by
  have low := first.le_toInt
  have high := last.toInt_lt
  have limit : countLimit = 18446744073709551616 := rfl
  omega

end Loop

/-! ## Statements that end -/

namespace Stmt

/-- No while loop, and no for loop whose body assigns to its counter. -/
def Counted : Stmt → Prop
  | .whileLoop _ _ _ => False
  | .forLoop _ counter _ _ body => ¬ body.Assigns counter.item
  | _ => True

variable {allowance : Nat}

theorem inFrame_ends {body : Machine → Option Ending} {machine : Machine}
    (ends : ∃ ending, body machine.enter = some ending) :
    ∃ ending, inFrame body machine = some ending := by
  rcases ends with ⟨ending, ended⟩
  exact ⟨_, Option.map_eq_some_iff.mpr ⟨ending, ended, rfl⟩⟩

theorem execAll_ends {statements : List Stmt}
    (each : ∀ statement ∈ statements, ∀ machine,
      ∃ ending, statement.exec allowance machine = some ending) (machine : Machine) :
    ∃ ending, execAll allowance statements machine = some ending := by
  induction statements generalizing machine with
  | nil => exact ⟨_, rfl⟩
  | cons head tail ih =>
      rw [List.forall_mem_cons] at each
      rw [execAll]
      split
      · exact ih each.2 _
      · exact each.1 machine

/-- A statement ends on every machine if all loops inside it count. -/
theorem exec_ends (enough : Loop.countLimit ≤ allowance) (statement : Stmt)
    (counted : ∀ node ∈ statement.nodes, node.Counted) (machine : Machine) :
    ∃ ending, statement.exec allowance machine = some ending := by
  induction statement generalizing machine with
  | block span body each =>
      rw [exec_eq, unwrapped]
      apply inFrame_ends
      apply execAll_ends
      intro statement member
      exact each statement member
        fun node found => counted node (nodes_subset_block member found)
  | jump span kind => cases kind <;> exact ⟨_, rfl⟩
  | print span arguments =>
      rw [exec_eq, unwrapped]
      split <;> exact ⟨_, rfl⟩
  | «return» span value =>
      rw [exec_eq, unwrapped]
      split <;> exact ⟨_, rfl⟩
  | assign span target op value =>
      rw [exec_eq, unwrapped]
      split <;> exact ⟨_, rfl⟩
  | branch span condition thenBranch thenEnds =>
      rw [exec_eq, unwrapped]
      split
      · exact ⟨_, rfl⟩
      · split
        · exact thenEnds (fun node found => counted node (nodes_subset_branch found)) machine
        · exact ⟨_, rfl⟩
  | alternative span condition thenBranch elseBranch thenEnds elseEnds =>
      rw [exec_eq, unwrapped]
      split
      · exact ⟨_, rfl⟩
      · split
        · exact thenEnds (fun node found => counted node (nodes_subset_then found)) machine
        · exact elseEnds (fun node found => counted node (nodes_subset_else found)) machine
  | whileLoop span condition body bodyEnds => exact (counted _ (self_mem_nodes _)).elim
  | forLoop span counter first last body bodyEnds =>
      have untouched : ¬ body.Assigns counter.item := counted _ (self_mem_nodes _)
      rw [exec_eq, unwrapped]
      split
      · exact ⟨_, rfl⟩
      · rename_i low high bounded
        apply inFrame_ends
        apply Loop.counted_ends (exec_keepsCount untouched) (Loop.Counts.of_bind _ _)
        · intro inner _
          exact bodyEnds (fun node found => counted node (nodes_subset_for found)) inner
        · exact Nat.lt_of_lt_of_le (Loop.range_lt_countLimit low high) enough

end Stmt

/--
A program without while loops, in which no for loop assigns to its own counter, ends on
every machine.  There is one run that it has under every allowance of at least as many
rounds as there are counts.
-/
theorem Program.run_ends (program : Program) (counted : ∀ node ∈ program.nodes, node.Counted)
    (machine : Machine) :
    ∃ run, ∀ allowance, Loop.countLimit ≤ allowance →
      program.run allowance machine = some run := by
  rcases Stmt.execAll_ends (fun statement member => statement.exec_ends (Nat.le_refl _)
      fun node found => counted node (Stmt.nodes_subset_nodesOfAll member found)) machine with
    ⟨ending, ends⟩
  refine ⟨conclude ending, ?_⟩
  intro allowance enough
  rw [run, Stmt.execAll_extends (fun statement _ => statement.exec_extends enough) ends]
  rfl

/-- The program `for i = 0 : x { y = i; for i = y : 9 { y += i; print i; } }`. -/
def Program.Sample.nestedCounts : Program :=
  ⟨[.forLoop default ⟨"i", default⟩ (.int default 0) (.var default "x")
    (.block default
      [.assign default (.var default "y") .plain (.var default "i"),
      .forLoop default ⟨"i", default⟩ (.var default "y") (.int default 9)
        (.block default
          [.assign default (.var default "y") (.compound .add) (.var default "i"),
          .print default [.var default "i"]])])]⟩

theorem Program.run_ends_nestedCounts :
    (∀ node ∈ Sample.nestedCounts.nodes, node.Counted) ∧
      ∃ run, ∀ allowance, Loop.countLimit ≤ allowance →
        Sample.nestedCounts.run allowance ⟨Stmt.Sample.outerMemory, .empty⟩ = some run := by
  have counted : ∀ node ∈ Sample.nestedCounts.nodes, node.Counted := by
    simp [Sample.nestedCounts, nodes, Stmt.nodes, Stmt.nodesOfAll, Stmt.Counted, Stmt.Assigns,
      Stmt.IsAssignmentTo, Expr.targetName?]
  exact ⟨counted, run_ends _ counted _⟩

end MatrixScript
