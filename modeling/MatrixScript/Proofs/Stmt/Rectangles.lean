import MatrixScript.Proofs.Expr.Forms
import MatrixScript.Proofs.Stmt.Effects
import MatrixScript.Proofs.Stmt.Visits

/-!
# Matrices that stay rectangular

The rows of a matrix are all as long, in every value that an accepted program ever keeps in
memory, provided that three things do not happen:

* An assignment reads a variable whose value does not resemble the type that the checker
  has for it, such as a vector in place of a number.  The checker goes through both branches
  of a condition and believes the last one.  What a variable held earlier, and what it holds
  when it is not read, does not matter.
* A row is replaced by a row of another length.  The checker compares the lengths if it
  knows them, and the machine does not compare them.
* Two arrays without members are multiplied, which makes an array where the checker
  expects a number.
-/

namespace MatrixScript

/-! ## Assignments -/

namespace Stmt

/-- The expressions at which an assignment reads a variable, if at all. -/
def readings : Stmt → List Expr
  | .assign _ (.var _ _) .plain value => value.nodes
  | .assign _ target _ value => target :: value.nodes
  | _ => []

/-- The checker foresees the value of every variable that the assignment reads. -/
def Foreseen (chain : ScopeChain) (memory : Memory) (statement : Stmt) : Prop :=
  ∀ node ∈ statement.readings, node.Foreseen chain memory

/-- The assignment multiplies two arrays without members. -/
def MultipliesEmpty (memory : Memory) : Stmt → Prop
  | .assign _ target op value =>
      (∃ node ∈ value.nodes, node.MultipliesEmpty memory) ∨
        (op = .compound .mul ∧ target.length? memory = some 0 ∧ value.length? memory = some 0)
  | _ => False

/-- If the assignment replaces a row, then by one of its length. -/
def FitsRow (memory : Memory) : Stmt → Prop
  | .assign _ (.reference span name coordinates) .plain value =>
      ∀ old ∈ (Expr.reference span name coordinates).length? memory,
        ∀ new ∈ value.length? memory, new = old
  | _ => True

instance (chain : ScopeChain) (memory : Memory) (statement : Stmt) :
    Decidable (statement.Foreseen chain memory) :=
  inferInstanceAs (Decidable (∀ node ∈ statement.readings, _))

instance (memory : Memory) (statement : Stmt) : Decidable (statement.MultipliesEmpty memory) :=
  match statement with
  | .assign _ _ _ _ => inferInstanceAs (Decidable ((∃ node ∈ _, _) ∨ _))
  | .block _ _ | .jump _ _ | .print _ _ | .return _ _ | .branch _ _ _ _ | .whileLoop _ _ _
  | .forLoop _ _ _ _ _ => isFalse id

instance (memory : Memory) (statement : Stmt) : Decidable (statement.FitsRow memory) :=
  match statement with
  | .assign _ (.reference _ _ _) .plain _ => inferInstanceAs (Decidable (∀ old ∈ _, _))
  | .assign _ (.reference _ _ _) (.compound _) _ | .assign _ (.int _ _) _ _
  | .assign _ (.float _ _) _ _ | .assign _ (.string _ _) _ _ | .assign _ (.var _ _) _ _
  | .assign _ (.vector _ _) _ _ | .assign _ (.matrix _ _) _ _ | .assign _ (.call _ _ _) _ _
  | .assign _ (.binary _ _ _ _) _ _ | .assign _ (.compare _ _ _ _) _ _
  | .assign _ (.unary _ _ _) _ _ | .block _ _ | .jump _ _ | .print _ _ | .return _ _
  | .branch _ _ _ _ | .whileLoop _ _ _ | .forLoop _ _ _ _ _ => isTrue trivial

end Stmt

/-- All that is asked of a visit. -/
structure Visit.Regular (visit : Visit) : Prop where
  clean : visit.site.Clean
  indexed : visit.site.statement.Indexed
  numeric : visit.site.Numeric
  foreseen : visit.site.statement.Foreseen visit.site.chain visit.machine.memory
  fits : visit.site.statement.FitsRow visit.machine.memory
  nonempty : ¬ visit.site.statement.MultipliesEmpty visit.machine.memory

namespace Stmt

section Assignments

variable {checker : Checker} {declared : List String} {span : Span} {target value : Expr}
  {op : AssignOp} {machine : Machine} {after : Memory}

theorem nodes_subset_readings :
    value.nodes ⊆ (Stmt.assign span target op value).readings := by
  unfold readings
  split
  · rename_i same
    cases same
    exact List.Subset.refl _
  · rename_i same
    cases same
    exact List.subset_cons_self _ _
  · rename_i notAssign
    exact absurd rfl (notAssign span target op value)

theorem value_hasForm
    (regular : Visit.Regular
      ⟨⟨checker, declared, .assign span target op value⟩, machine⟩)
    (rectangular : machine.memory.Rectangular) (accepted : value.Accepted checker.chain)
    {new : Value} (evaluated : value.eval machine.memory = .ok new) :
    new.HasForm (value.check checker.chain).result.ty := by
  apply gives_iff.mp ?_ new evaluated
  apply Expr.eval_hasForm regular.clean.proper rectangular value ?_ accepted
  intro node inside
  have found : node ∈ (Stmt.assign span target op value).expressions :=
    Expr.mem_nodesOfAll.mpr ⟨value, by simp [exprs], inside⟩
  exact {
    indexed := regular.indexed node found
    numeric := regular.numeric node found
    foreseen := regular.foreseen node (nodes_subset_readings inside)
    nonempty := fun multiplies => regular.nonempty (.inl ⟨node, inside, multiplies⟩) }

/-- What an assignment stores is of the form that the checker found. -/
theorem computed_hasForm {stored : Descriptor} {new : Value}
    (regular : Visit.Regular
      ⟨⟨checker, declared, .assign span target op value⟩, machine⟩)
    (rectangular : machine.memory.Rectangular)
    (targetHas : op ≠ .plain → ∀ old, target.eval machine.memory = .ok old →
      old.HasForm (target.check checker.chain).result.ty)
    (accepted : value.Accepted checker.chain)
    (computed : Computed checker.chain machine.memory target value op stored new) :
    new.HasForm stored.ty := by
  cases computed with
  | plain newIs => exact value_hasForm regular rectangular accepted newIs
  | @compound arith _ old operand _ combination oldIs operandIs newIs =>
      have oldHas := targetHas (by rintro ⟨⟩) old oldIs
      have operandHas := value_hasForm regular rectangular accepted operandIs
      apply gives_iff.mp (Value.binary_hasForm combination ?_ oldHas operandHas) new newIs
      rintro ⟨isMul, rfl, rfl⟩
      cases isMul
      exact regular.nonempty
        (.inr ⟨rfl, Expr.length?_of_eval oldIs, Expr.length?_of_eval operandIs⟩)

/-- What is stored in the place of a row is a row of the same length. -/
theorem computed_row {targetSpan : Span} {name : Located String} {coordinates : List Expr}
    {stored : Descriptor} {old new : Value} {lengths : Nat → Prop}
    (regular : Visit.Regular
      ⟨⟨checker, declared, .assign span (.reference targetSpan name coordinates) op value⟩,
        machine⟩)
    (rectangular : machine.memory.Rectangular) (accepted : value.Accepted checker.chain)
    (computed : Computed checker.chain machine.memory (.reference targetSpan name coordinates)
      value op stored new)
    (slotVector :
      ((Expr.reference targetSpan name coordinates).check checker.chain).result.ty = .vector)
    (storedVector : stored.ty = .vector)
    (oldIs : (Expr.reference targetSpan name coordinates).eval machine.memory = .ok old)
    (row : old.VectorOf lengths) : new.VectorOf lengths := by
  cases computed with
  | plain newIs =>
      have has := value_hasForm regular rectangular accepted newIs
      rw [storedVector] at has
      rcases has.vectorOf.exists_items with ⟨items, rfl, numbers, _⟩
      rcases row.exists_items with ⟨oldItems, rfl, _, oldLength⟩
      have same : items.length = oldItems.length :=
        regular.fits _ (Expr.length?_of_eval oldIs) _ (Expr.length?_of_eval newIs)
      exact ⟨numbers, same ▸ oldLength⟩
  | compound combination sameIs operandIs newIs =>
      rw [oldIs] at sameIs
      cases sameIs
      have operandHas := value_hasForm regular rectangular accepted operandIs
      exact gives_iff.mp
        (Value.binary_vector combination slotVector storedVector row operandHas) new newIs

/-- A regular assignment leaves every variable a rectangular value. -/
theorem assigned_rectangular
    (regular : Visit.Regular
      ⟨⟨checker, declared, .assign span target op value⟩, machine⟩)
    (rectangular : machine.memory.Rectangular)
    (done : assigned machine.memory target op value = .ok after) : after.Rectangular := by
  have chainProper := regular.clean.proper
  rcases effect_of_assigned chainProper regular.indexed
    (Checker.note_clean.mp regular.clean.nothing).2 done with ⟨accepted, effect⟩
  generalize (checkAssign checker.chain span target op value).result = afterChain at effect
  cases effect with
  | @declare targetSpan name stored new computed =>
      have has := computed_hasForm regular rectangular (absurd rfl) accepted computed
      exact rectangular.bind has.rectangular
  | @combine targetSpan name arith stored new known computed =>
      have foresees : checker.chain.Foresees machine.memory name :=
        regular.foreseen _ List.mem_cons_self
      have targetHas := gives_iff.mp (Expr.variable_hasForm rectangular foresees known)
      have has := computed_hasForm regular rectangular (fun _ => targetHas) accepted computed
      exact rectangular.update has.rectangular
  | @store targetSpan name coordinates _ container stored array new changed places slot computed
      visible proper aggregate notAll few selected takes held oldIs wrote =>
      have foresees : checker.chain.Foresees machine.memory name.item :=
        regular.foreseen _ List.mem_cons_self
      have targetHas := gives_iff.mp (Expr.reference_hasForm chainProper rectangular foresees
        regular.indexed.coordinates slot)
      have has := computed_hasForm regular rectangular (fun _ => targetHas) accepted computed
      rcases (Value.HasForm.nested_iff aggregate).mp
        (foresees.hasForm rectangular visible held) with ⟨width, nested⟩
      have keeps : Gives (Value.Nested (· = width) container.ty) (array.write new places) := by
        apply Value.write_nested proper notAll few nested
        · intro row
          rcases Value.read_of_write wrote with ⟨old, reads⟩
          apply computed_row regular rectangular accepted computed (selected ▸ row)
            (takes.row row) (oldIs.trans reads)
          exact gives_iff.mp (Value.read_row proper notAll few nested row) old reads
        · intro element
          exact has.isNumber (takes.element element)
      have changedHas : changed.HasForm container.ty :=
        (Value.HasForm.nested_iff aggregate).mpr ⟨width, gives_iff.mp keeps changed wrote⟩
      exact rectangular.update changedHas.rectangular

end Assignments

end Stmt

/-- What a regular visit writes is rectangular. -/
theorem Visit.Regular.preserves {visit : Visit} (regular : visit.Regular) :
    visit.Preserves Memory.Rectangular := by
  rcases visit with ⟨⟨checker, declared, statement⟩, machine⟩
  cases statement with
  | assign span target op value =>
      intro rectangular after done
      exact Stmt.assigned_rectangular regular rectangular done
  | forLoop span counter first last body =>
      intro memory number rectangular
      have count : (Value.int number).Rectangular := trivial
      exact ⟨rectangular.bind count, rectangular.update count⟩
  | _ => trivial

/-! ## Programs -/

namespace Program

/--
Matrices stay rectangular.  Let a program be read from tokens and accepted, with literals of
numbers.  As long as the assignments of its run read variables whose values resemble the
types that the checker has for them, replace rows by rows of their length and multiply no
two arrays without members, all variables have rectangular values: whenever the run comes to
a statement, whenever a statement ends, however it ends, and when the run is over.
-/
theorem matrices_stay_rectangular {tokens : TokenStream} {program : Program}
    (parsed : ofTokens tokens = .ok program) (accepted : program.check = [])
    (numeric : ∀ site ∈ program.sites, site.Numeric)
    {allowance : Nat} {transcript : Transcript}
    (foreseen : ∀ visit ∈ program.visits allowance (.start transcript),
      visit.site.statement.Foreseen visit.site.chain visit.machine.memory)
    (fits : ∀ visit ∈ program.visits allowance (.start transcript),
      visit.site.statement.FitsRow visit.machine.memory)
    (nonempty : ∀ visit ∈ program.visits allowance (.start transcript),
      ¬ visit.site.statement.MultipliesEmpty visit.machine.memory) :
    (∀ visit ∈ program.visits allowance (.start transcript),
      visit.Keeps allowance Memory.Rectangular) ∧
    ∀ run, program.run allowance (.start transcript) = some run →
      run.machine.memory.Rectangular := by
  have regular : ∀ visit ∈ program.visits allowance (.start transcript), visit.Regular := by
    intro visit member
    have site := visits_sites member
    exact {
      clean := sites_clean accepted _ site
      indexed := ofTokens_indexed parsed _ (statement_mem_nodes site)
      numeric := numeric _ site
      foreseen := foreseen visit member
      fits := fits visit member
      nonempty := nonempty visit member }
  have start : (Machine.start transcript).memory.Rectangular := Memory.All.root
  exact visits_keep (fun _ rectangular => rectangular.push_empty)
    (fun _ rectangular => rectangular.pop) start
    fun visit member => (regular visit member).preserves

namespace Sample

/--
The tokens of
`n = 2; m = n; m = zeros(n, 3); for i = 0:n { m[i] = [i, 1, 2]; if (i) m[i] *= 2; } m = m * m';`.
-/
def filledTokens : TokenStream :=
  [.identifier "n", .symbol .equal, .int 2, .symbol .semicolon,
    .identifier "m", .symbol .equal, .identifier "n", .symbol .semicolon,
    .identifier "m", .symbol .equal, .keyword .zeros, .symbol .openParen, .identifier "n",
    .symbol .comma, .int 3, .symbol .closeParen, .symbol .semicolon,
    .keyword .«for», .identifier "i", .symbol .equal, .int 0, .symbol .colon, .identifier "n",
    .symbol .openBrace,
    .identifier "m", .symbol .openBracket, .identifier "i", .symbol .closeBracket,
    .symbol .equal, .symbol .openBracket, .identifier "i", .symbol .comma, .int 1,
    .symbol .comma, .int 2, .symbol .closeBracket, .symbol .semicolon,
    .keyword .«if», .symbol .openParen, .identifier "i", .symbol .closeParen,
    .identifier "m", .symbol .openBracket, .identifier "i", .symbol .closeBracket,
    .symbol .starEqual, .int 2, .symbol .semicolon, .symbol .closeBrace,
    .identifier "m", .symbol .equal, .identifier "m", .symbol .star, .identifier "m",
    .symbol .quote, .symbol .semicolon].map fun token => ⟨token, default⟩

/-- A number is replaced by a matrix of unknown height, which is filled and then multiplied. -/
def filled : Program :=
  ⟨[.assign default (.var default "n") .plain (.int default 2),
    .assign default (.var default "m") .plain (.var default "n"),
    .assign default (.var default "m") .plain
      (.call default .zeros [.var default "n", .int default 3]),
    .forLoop default ⟨"i", default⟩ (.int default 0) (.var default "n")
      (.block default
        [.assign default (.reference default ⟨"m", default⟩ [.var default "i"]) .plain
          (.vector default [.var default "i", .int default 1, .int default 2]),
        .branch default (.var default "i")
          (.assign default (.reference default ⟨"m", default⟩ [.var default "i"])
            (.compound .mul) (.int default 2)) none]),
    .assign default (.var default "m") .plain
      (.binary default (.var default "m") (.plain .mul)
        (.unary default .transpose (.var default "m")))]⟩

end Sample

theorem matrices_stay_rectangular_filled :
    ofTokens Sample.filledTokens = .ok Sample.filled ∧ Sample.filled.check = [] ∧
      (Sample.filled.visits 3 (.start .empty)).length = 12 ∧
      (∀ visit ∈ Sample.filled.visits 3 (.start .empty),
        visit.Keeps 3 Memory.Rectangular) ∧
      ∃ run, Sample.filled.run 3 (.start .empty) = some run ∧
        run.machine.memory.Rectangular := by
  have parsed : ofTokens Sample.filledTokens = .ok Sample.filled := rfl
  have accepted : Sample.filled.check = [] := by
    decide +kernel
  have numeric : ∀ site ∈ Sample.filled.sites, site.Numeric := by
    decide +kernel
  have foreseen : ∀ visit ∈ Sample.filled.visits 3 (.start .empty),
      visit.site.statement.Foreseen visit.site.chain visit.machine.memory := by
    decide +kernel
  have fits : ∀ visit ∈ Sample.filled.visits 3 (.start .empty),
      visit.site.statement.FitsRow visit.machine.memory := by
    decide +kernel
  have nonempty : ∀ visit ∈ Sample.filled.visits 3 (.start .empty),
      ¬ visit.site.statement.MultipliesEmpty visit.machine.memory := by
    decide +kernel
  have runs : ∃ run, Sample.filled.run 3 (.start .empty) = some run := ⟨_, rfl⟩
  rcases matrices_stay_rectangular parsed accepted numeric foreseen fits nonempty with ⟨keep, ends⟩
  rcases runs with ⟨run, ran⟩
  exact ⟨parsed, accepted, by decide +kernel, keep, run, ran, ends run ran⟩

/-- The program ends without error and leaves a matrix with rows of different lengths. -/
def EndsRagged (program : Program) : Prop :=
  ∃ machine, program.run 0 (.start .empty) = some ⟨.ok none, machine⟩ ∧
    ∃ name first second rest, machine.memory.lookup? name =
      some (.array (.array first :: .array second :: rest)) ∧ first.length ≠ second.length

namespace Sample

/-- The tokens of `n = 2; m = zeros(n); m[0] = [1, 2, 3];`. -/
def longRowTokens : TokenStream :=
  [.identifier "n", .symbol .equal, .int 2, .symbol .semicolon,
    .identifier "m", .symbol .equal, .keyword .zeros, .symbol .openParen, .identifier "n",
    .symbol .closeParen, .symbol .semicolon,
    .identifier "m", .symbol .openBracket, .int 0, .symbol .closeBracket, .symbol .equal,
    .symbol .openBracket, .int 1, .symbol .comma, .int 2, .symbol .comma, .int 3,
    .symbol .closeBracket, .symbol .semicolon].map fun token => ⟨token, default⟩

def longRow : Program :=
  ⟨[.assign default (.var default "n") .plain (.int default 2),
    .assign default (.var default "m") .plain (.call default .zeros [.var default "n"]),
    .assign default (.reference default ⟨"m", default⟩ [.int default 0]) .plain
      (.vector default [.int default 1, .int default 2, .int default 3])]⟩

/-- The tokens of `x = [1, 2]; y = [1]; if (0) x = 3; if (0) y = 3; a = [x, y];`. -/
def skippedTokens : TokenStream :=
  [.identifier "x", .symbol .equal, .symbol .openBracket, .int 1, .symbol .comma, .int 2,
    .symbol .closeBracket, .symbol .semicolon,
    .identifier "y", .symbol .equal, .symbol .openBracket, .int 1, .symbol .closeBracket,
    .symbol .semicolon,
    .keyword .«if», .symbol .openParen, .int 0, .symbol .closeParen,
    .identifier "x", .symbol .equal, .int 3, .symbol .semicolon,
    .keyword .«if», .symbol .openParen, .int 0, .symbol .closeParen,
    .identifier "y", .symbol .equal, .int 3, .symbol .semicolon,
    .identifier "a", .symbol .equal, .symbol .openBracket, .identifier "x", .symbol .comma,
    .identifier "y", .symbol .closeBracket, .symbol .semicolon].map fun token => ⟨token, default⟩

def skipped : Program :=
  ⟨[.assign default (.var default "x") .plain
      (.vector default [.int default 1, .int default 2]),
    .assign default (.var default "y") .plain (.vector default [.int default 1]),
    .branch default (.int default 0)
      (.assign default (.var default "x") .plain (.int default 3)) none,
    .branch default (.int default 0)
      (.assign default (.var default "y") .plain (.int default 3)) none,
    .assign default (.var default "a") .plain
      (.vector default [.var default "x", .var default "y"])]⟩

/-- The tokens of `n = 0; z = zeros(1, n); a = [([] * []), [([] * [])] * z[0]];`. -/
def emptyTokens : TokenStream :=
  [.identifier "n", .symbol .equal, .int 0, .symbol .semicolon,
    .identifier "z", .symbol .equal, .keyword .zeros, .symbol .openParen, .int 1, .symbol .comma,
    .identifier "n", .symbol .closeParen, .symbol .semicolon,
    .identifier "a", .symbol .equal, .symbol .openBracket,
    .symbol .openParen, .symbol .openBracket, .symbol .closeBracket, .symbol .star,
    .symbol .openBracket, .symbol .closeBracket, .symbol .closeParen, .symbol .comma,
    .symbol .openBracket, .symbol .openParen, .symbol .openBracket, .symbol .closeBracket,
    .symbol .star, .symbol .openBracket, .symbol .closeBracket, .symbol .closeParen,
    .symbol .closeBracket, .symbol .star, .identifier "z", .symbol .openBracket, .int 0,
    .symbol .closeBracket, .symbol .closeBracket, .symbol .semicolon].map
      fun token => ⟨token, default⟩

def empty : Program :=
  ⟨[.assign default (.var default "n") .plain (.int default 0),
    .assign default (.var default "z") .plain
      (.call default .zeros [.int default 1, .var default "n"]),
    .assign default (.var default "a") .plain
      (.vector default
        [.binary default (.vector default []) (.plain .mul) (.vector default []),
        .binary default
          (.vector default
            [.binary default (.vector default []) (.plain .mul) (.vector default [])])
          (.plain .mul) (.reference default ⟨"z", default⟩ [.int default 0])])]⟩

end Sample

/-- Each of the three provisos is needed. -/
theorem provisos_needed :
    (ofTokens Sample.longRowTokens = .ok Sample.longRow ∧ Sample.longRow.check = [] ∧
      (∀ site ∈ Sample.longRow.sites, site.Numeric) ∧
      (∀ visit ∈ Sample.longRow.visits 0 (.start .empty),
        visit.site.statement.Foreseen visit.site.chain visit.machine.memory ∧
          ¬ visit.site.statement.MultipliesEmpty visit.machine.memory) ∧
      Sample.longRow.EndsRagged) ∧
    (ofTokens Sample.skippedTokens = .ok Sample.skipped ∧ Sample.skipped.check = [] ∧
      (∀ site ∈ Sample.skipped.sites, site.Numeric) ∧
      (∀ visit ∈ Sample.skipped.visits 0 (.start .empty),
        visit.site.statement.FitsRow visit.machine.memory ∧
          ¬ visit.site.statement.MultipliesEmpty visit.machine.memory) ∧
      Sample.skipped.EndsRagged) ∧
    ofTokens Sample.emptyTokens = .ok Sample.empty ∧ Sample.empty.check = [] ∧
      (∀ site ∈ Sample.empty.sites, site.Numeric) ∧
      (∀ visit ∈ Sample.empty.visits 0 (.start .empty),
        visit.site.statement.Foreseen visit.site.chain visit.machine.memory ∧
          visit.site.statement.FitsRow visit.machine.memory) ∧
      Sample.empty.EndsRagged := by
  refine ⟨⟨rfl, by decide +kernel, by decide +kernel, by decide +kernel, ?_⟩,
    ⟨rfl, by decide +kernel, by decide +kernel, by decide +kernel, ?_⟩,
    rfl, by decide +kernel, by decide +kernel, by decide +kernel, ?_⟩
  · exact ⟨_, rfl, "m", _, _, _, rfl, by decide⟩
  · exact ⟨_, rfl, "a", _, _, _, rfl, by decide⟩
  · exact ⟨_, rfl, "a", _, _, _, rfl, by decide⟩

end Program

end MatrixScript
