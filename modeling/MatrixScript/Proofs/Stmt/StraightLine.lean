import MatrixScript.Proofs.Mirrors
import MatrixScript.Proofs.Stmt.Effects
import MatrixScript.Proofs.Stmt.Sites

/-!
# Straight-line code

A program of assignments, prints and blocks runs through the statements in the order in
which they were checked.  If it is accepted and runs to its end, the scopes of the
checker mirror the frames of the machine then, provided that no block makes a variable
of an enclosing block another type.

This proviso is needed.  The checker records a compound assignment in the innermost
scope and forgets it at the end of the block, while the machine changes the variable
where it lives.
-/

namespace MatrixScript

open Bindings (find?)

/-- The statement is one of straight-line code. -/
def Stmt.IsStraight : Stmt → Prop
  | .assign _ _ _ _ | .print _ _ | .block _ _ => True
  | _ => False

instance (statement : Stmt) : Decidable statement.IsStraight :=
  match statement with
  | .assign _ _ _ _ | .print _ _ | .block _ _ => isTrue trivial
  | .jump _ _ | .return _ _ | .branch _ _ _ _ | .whileLoop _ _ _ | .forLoop _ _ _ _ _ =>
      isFalse id

/-- The statement itself is a compound assignment that multiplies two vectors. -/
def Stmt.CombinesVectors (chain : ScopeChain) : Stmt → Prop
  | .assign _ target op value =>
      op = .compound .mul ∧ (target.check chain).result.ty = .vector ∧
        (value.check chain).result.ty = .vector
  | _ => False

instance (chain : ScopeChain) (statement : Stmt) : Decidable (statement.CombinesVectors chain) :=
  match statement with
  | .assign _ _ _ _ => inferInstanceAs (Decidable (_ ∧ _ ∧ _))
  | .block _ _ | .jump _ _ | .print _ _ | .return _ _ | .branch _ _ _ _ | .whileLoop _ _ _
  | .forLoop _ _ _ _ _ => isFalse id

/-- The variable that a compound assignment changes. -/
def Stmt.combined? : Stmt → Option String
  | .assign _ (.var _ name) (.compound _) _ => some name
  | _ => none

/-- What a name means in the scopes around the innermost one. -/
def ScopeChain.outside? (chain : ScopeChain) (name : String) : Option Descriptor :=
  find? chain.outer name

namespace Site

/-- Two vectors are multiplied in the statement itself. -/
def HasDot (site : Site) : Prop :=
  (∃ node ∈ site.statement.expressions, node.IsDot site.chain) ∨
    site.statement.CombinesVectors site.chain

/--
A compound assignment keeps the type that the variable has outside of the block, unless
the block has a variable of that name itself.
-/
def KeepsOuterType (site : Site) : Prop :=
  ∀ name ∈ site.statement.combined?, name ∈ site.declared ∨
    ∀ outer ∈ site.chain.outside? name, ∀ inner ∈ site.after.get? name, inner.ty = outer.ty

instance (site : Site) : Decidable site.HasDot :=
  inferInstanceAs (Decidable ((∃ node ∈ site.statement.expressions, _) ∨ _))

instance (site : Site) : Decidable site.KeepsOuterType :=
  inferInstanceAs (Decidable (∀ name ∈ site.statement.combined?, _))

/-- All that is asked of a site of straight-line code. -/
structure Tracked (site : Site) : Prop where
  clean : site.Clean
  indexed : site.statement.Indexed
  numeric : site.Numeric
  noDot : ¬ site.HasDot
  keeps : site.KeepsOuterType

theorem Tracked.suits {site : Site} (tracked : site.Tracked) {expr : Expr}
    (member : expr ∈ site.statement.exprs) :
    ∀ node ∈ expr.nodes, Precision.loose.Suits site.chain True node := by
  intro node inside
  have found : node ∈ site.statement.expressions :=
    Expr.mem_nodesOfAll.mpr ⟨expr, member, inside⟩
  exact {
    indexed := tracked.indexed node found
    numeric := tracked.numeric node found
    filled := by
      intro impossible
      cases impossible
    noDot := fun _ isDot => tracked.noDot (.inl ⟨node, found, isDot⟩)
    literal := fun _ => trivial }

end Site

/-! ## Assignments -/

theorem Value.nested_iff_hasKind {ty : Ty} {value : Value} (aggregate : ty.isAggregate = true) :
    value.Nested (fun _ => True) ty ↔ value.HasKind ty := by
  rcases Ty.isAggregate_iff.mp aggregate with rfl | rfl
  · exact Iff.rfl
  · exact Iff.rfl

namespace Stmt

section Assignments

variable {checker : Checker} {declared : List String} {span : Span} {target value : Expr}
  {op : AssignOp} {memory after : Memory}

/-- An expression of a tracked site evaluates to what its descriptor says. -/
theorem fits_of_tracked {site : Site} (tracked : site.Tracked)
    (mirrors : Mirrors site.chain.scopes memory.frames) {expr : Expr}
    (member : expr ∈ site.statement.exprs) (accepted : expr.Accepted site.chain)
    {result : Value} (evaluated : expr.eval memory = .ok result) :
    Precision.loose.Fits (expr.check site.chain).result result := by
  have evaluates := Precision.evaluates (mirrors.agrees tracked.clean.proper) expr
    (tracked.suits member)
  have yields := evaluates.fits accepted
  rw [evaluated] at yields
  exact yields

/-- What an assignment stores is of the type that the checker found. -/
theorem computed_fits {stored : Descriptor} {new : Value}
    (tracked : Site.Tracked ⟨checker, declared, .assign span target op value⟩)
    (mirrors : Mirrors checker.chain.scopes memory.frames)
    (targetAccepted : op ≠ .plain → target.Accepted checker.chain)
    (accepted : value.Accepted checker.chain)
    (computed : Computed checker.chain memory target value op stored new) :
    Precision.loose.Fits stored new := by
  cases computed with
  | plain newIs => exact fits_of_tracked tracked mirrors (by simp [exprs]) accepted newIs
  | @compound arith _ old operand _ combination oldIs operandIs newIs =>
      have known := targetAccepted (by rintro ⟨⟩)
      have oldFits := fits_of_tracked tracked mirrors (by simp [exprs]) known oldIs
      have operandFits := fits_of_tracked tracked mirrors (by simp [exprs]) accepted operandIs
      have noDot : ¬ (BinaryOp.plain arith = .plain .mul ∧
          (target.check checker.chain).result.ty = .vector ∧
          (value.check checker.chain).result.ty = .vector) := by
        rintro ⟨isMul, vectors⟩
        cases isMul
        exact tracked.noDot (.inr ⟨rfl, vectors⟩)
      have yields : Yields (Precision.loose.Allows True) (Precision.loose.Fits stored)
          (Value.binary (.plain arith) old operand) :=
        Precision.binary_fits combination (fun _ => noDot) oldFits operandFits
      rw [newIs] at yields
      exact yields

/-- A compound assignment goes to the top scope, and to the frame that owns the variable. -/
theorem update_mirrors {name : String} {known stored : Descriptor} {combined : Value}
    (mirrors : Mirrors checker.chain.scopes memory.frames)
    (visible : checker.chain.get? name = some known)
    (keeps : name ∉ memory.top.names →
      ∀ outer ∈ checker.chain.outside? name, stored.ty = outer.ty)
    (kind : combined.HasKind stored.ty) :
    Mirrors (checker.chain.put name stored).scopes (memory.update name combined).frames := by
  by_cases owned : name ∈ memory.top.names
  · rw [Memory.update_eq_bind owned]
    exact mirrors.declare kind
  · have free : memory.top.get? name = none := by
      simpa [Bindings.mem_names_iff] using owned
    rcases mirrors.outside visible free with ⟨outer, visibleOutside⟩
    rcases mirrors.leave.found visibleOutside with ⟨old, held, _⟩
    rcases Memory.replaceIn_of_found held combined with ⟨changed, replaced⟩
    have frames : Memory.replaceIn name combined memory.frames =
        some (memory.top :: changed) := by
      simp [Memory.frames, Memory.replaceIn, Bindings.contains, free, replaced]
    rw [Memory.frames_update frames]
    exact mirrors.combine free visibleOutside (keeps owned outer visibleOutside).symm kind replaced

/-- A tracked assignment leaves frames that the scopes behind it mirror. -/
theorem assigned_mirrors
    (tracked : Site.Tracked ⟨checker, declared, .assign span target op value⟩)
    (mirrors : Mirrors checker.chain.scopes memory.frames)
    (owned : declared ⊆ memory.top.names)
    (done : assigned memory target op value = .ok after) :
    Mirrors (checkAssign checker.chain span target op value).result.scopes after.frames := by
  rcases effect_of_assigned tracked.clean.proper tracked.indexed
    (Checker.note_clean.mp tracked.clean.nothing).2 done with ⟨accepted, effect⟩
  have keeps := tracked.keeps
  have behind : Site.after ⟨checker, declared, .assign span target op value⟩ =
      (checkAssign checker.chain span target op value).result := rfl
  generalize (checkAssign checker.chain span target op value).result = afterChain
    at effect behind ⊢
  cases effect with
  | @declare targetSpan name stored new computed =>
      have fits := computed_fits tracked mirrors (absurd rfl) accepted computed
      have kind := Precision.hasKind_of_fits fits
      exact mirrors.declare (show new.HasKind (stored.named name).ty from kind)
  | @combine targetSpan name arith stored new known computed =>
      have fits := computed_fits tracked mirrors (fun _ => known) accepted computed
      have kind := Precision.hasKind_of_fits fits
      apply update_mirrors mirrors (Expr.checkVariable_clean known) ?_
        (show new.HasKind (stored.named name).ty from kind)
      intro free outer outside
      rcases keeps name rfl with inBlock | keeps
      · exact absurd (owned inBlock) free
      · apply keeps outer outside (stored.named name)
        rw [behind, ScopeChain.get?_put, if_pos rfl]
        rfl
  | @store targetSpan name coordinates _ container stored array new changed places slot computed
      visible proper aggregate notAll few selected takes held oldIs wrote =>
      have fits := computed_fits tracked mirrors (fun _ => slot) accepted computed
      have kind := Precision.hasKind_of_fits fits
      have keepsNesting : Gives (Value.Nested (fun _ => True) container.ty)
          (array.write new places) := by
        apply Value.write_nested proper notAll few
        · exact (Value.nested_iff_hasKind aggregate).mpr (mirrors.hasKind visible held)
        · intro row
          rw [takes.row row] at kind
          exact kind
        · intro element
          exact kind.isNumber (takes.element element)
      have changedKind := (Value.nested_iff_hasKind aggregate).mp
        (gives_iff.mp keepsNesting changed wrote)
      rcases Memory.replaceIn_of_found held changed with ⟨frames, replaced⟩
      rw [Memory.frames_update replaced]
      exact mirrors.replace visible changedKind replaced

end Assignments

/-! ## Statements -/

variable {allowance : Nat}

/--
If the statement ends without error, it ends normally; and from frames that the scopes mirror
it leads to such frames, if its sites are tracked.
-/
def Tracks (allowance : Nat) (statement : Stmt) : Prop :=
  ∀ (declared : List String) (checker : Checker) (machine : Machine) (ending : Ending)
    (flow : Flow), (∀ site ∈ statement.sites declared checker, site.Tracked) →
    Mirrors checker.chain.scopes machine.memory.frames →
    declared ⊆ machine.memory.top.names →
    statement.exec allowance machine = some ending → ending.flow = .ok flow →
    flow = .normal ∧
      Mirrors (statement.check checker).chain.scopes ending.machine.memory.frames ∧
      statement.declares ⊆ ending.machine.memory.top.names

theorem execAll_mirrors {statements : List Stmt}
    (each : ∀ statement ∈ statements, statement.Tracks allowance)
    (declared : List String) (checker : Checker) {machine : Machine} {ending : Ending}
    {flow : Flow} (tracked : ∀ site ∈ sitesOfAll statements declared checker, site.Tracked)
    (mirrors : Mirrors checker.chain.scopes machine.memory.frames)
    (owned : declared ⊆ machine.memory.top.names)
    (runs : execAll allowance statements machine = some ending)
    (ends : ending.flow = .ok flow) :
    flow = .normal ∧
      Mirrors (checkAll statements checker).chain.scopes ending.machine.memory.frames := by
  induction statements generalizing declared checker machine with
  | nil =>
      cases runs
      cases ends
      exact ⟨rfl, mirrors⟩
  | cons head tail ih =>
      rw [List.forall_mem_cons] at each
      rw [sitesOfAll, List.forall_mem_append] at tracked
      rw [execAll] at runs
      split at runs
      · rename_i after headEnds
        rcases each.1 declared checker machine _ _ tracked.1 mirrors owned headEnds rfl with
          ⟨_, headMirrors, headDeclares⟩
        have kept := (head.exec_grows machine _ headEnds).top
        apply ih each.2 (head.declares ++ declared) (head.check checker) tracked.2 headMirrors
        · exact List.append_subset.mpr ⟨headDeclares, List.Subset.trans owned kept⟩
        · exact runs
      · rename_i notNormal
        rcases each.1 declared checker machine ending flow tracked.1 mirrors owned runs ends with
          ⟨rfl, _⟩
        rcases ending with ⟨_, after⟩
        cases ends
        exact absurd runs (notNormal after)

theorem block_tracks {body : List Stmt} (span : Span)
    (each : ∀ statement ∈ body, statement.Tracks allowance) :
    (Stmt.block span body).Tracks allowance := by
  intro declared checker machine ending flow tracked mirrors owned runs ends
  rw [sites, List.forall_mem_cons] at tracked
  rw [exec_eq, unwrapped] at runs
  rcases Option.map_eq_some_iff.mp runs with ⟨inside, ran, rfl⟩
  let entered : Checker := { checker with chain := checker.chain.enter }
  have enters : Mirrors entered.chain.scopes machine.enter.memory.frames := mirrors.enter
  rcases execAll_mirrors each [] entered tracked.2 enters (List.nil_subset _) ran ends with
    ⟨normal, insideMirrors⟩
  have outer : (checkAll body entered).chain.outer = checker.chain.scopes :=
    (checkAll_extends (fun statement _ => statement.check_extends) entered).scope.outer
  have below : Mirrors checker.chain.scopes inside.machine.memory.below := by
    rw [ScopeChain.scopes, outer] at insideMirrors
    exact insideMirrors.leave
  refine ⟨normal, ?_, List.nil_subset _⟩
  rw [check, inScope_check_chain]
  show Mirrors checker.chain.scopes inside.machine.memory.pop.frames
  rw [Memory.frames_pop]
  · exact below
  · intro none
    rw [none] at below
    cases below

theorem assign_tracks (span : Span) (target : Expr) (op : AssignOp) (value : Expr) :
    (Stmt.assign span target op value).Tracks allowance := by
  intro declared checker machine ending flow tracked mirrors owned runs ends
  have here := tracked _ (sites_head _ declared checker)
  rw [exec_eq, unwrapped] at runs
  split at runs
  · cases runs
    cases ends
  · rename_i memory done
    cases runs
    cases ends
    refine ⟨rfl, assigned_mirrors here mirrors owned done, ?_⟩
    intro name member
    unfold declares at member
    split at member
    · rename_i same
      cases same
      rcases assigned_var done with ⟨new, _, rfl⟩
      cases List.mem_singleton.mp member
      exact (Bindings.mem_names_insert _ _ _ _).mpr (.inl rfl)
    · cases member

/-- Straight-line code keeps the scopes a mirror of the frames. -/
theorem tracks_of_straight (statement : Stmt)
    (straight : ∀ node ∈ statement.nodes, node.IsStraight) : statement.Tracks allowance := by
  induction statement with
  | block span body each =>
      apply block_tracks
      intro statement member
      exact each statement member fun node found => straight node (nodes_subset_block member found)
  | print span arguments =>
      intro declared checker machine ending flow tracked mirrors owned runs ends
      rw [exec_eq, unwrapped] at runs
      split at runs
      · cases runs
        cases ends
      · cases runs
        cases ends
        exact ⟨rfl, mirrors, List.nil_subset _⟩
  | assign span target op value => exact assign_tracks span target op value
  | jump => exact (straight _ (self_mem_nodes _)).elim
  | «return» => exact (straight _ (self_mem_nodes _)).elim
  | branch => exact (straight _ (self_mem_nodes _)).elim
  | alternative => exact (straight _ (self_mem_nodes _)).elim
  | whileLoop => exact (straight _ (self_mem_nodes _)).elim
  | forLoop => exact (straight _ (self_mem_nodes _)).elim

end Stmt

namespace Program

/--
Straight-line code that was read from tokens, has literals of numbers and no products of two
vectors, and in which no compound assignment makes a variable of an enclosing block another
type: if it is accepted and runs to its end, then a name has a value just if the checker
knows it, and the value is of the type that the checker gives it.
-/
theorem values_match_descriptors {tokens : TokenStream} {program : Program}
    (parsed : ofTokens tokens = .ok program)
    (straight : ∀ node ∈ program.nodes, node.IsStraight)
    (numeric : ∀ site ∈ program.sites, site.Numeric)
    (noDot : ∀ site ∈ program.sites, ¬ site.HasDot)
    (keeps : ∀ site ∈ program.sites, site.KeepsOuterType)
    (accepted : program.check = []) {allowance : Nat} {transcript : Transcript}
    {result : Option Value} {machine : Machine}
    (runs : program.run allowance (.start transcript) = some ⟨.ok result, machine⟩)
    (name : String) :
    Option.Rel (fun value descriptor => value.HasKind descriptor.ty)
      (machine.memory.lookup? name) ((Checker.start.checkProgram program).2.lookup? name) := by
  have tracked : ∀ site ∈ program.sites, site.Tracked := by
    intro site member
    exact {
      clean := sites_clean accepted site member
      indexed := ofTokens_indexed parsed _ (statement_mem_nodes member)
      numeric := numeric site member
      noDot := noDot site member
      keeps := keeps site member }
  have each : ∀ statement ∈ program.body, statement.Tracks allowance := by
    intro statement member
    apply statement.tracks_of_straight
    intro node found
    exact straight node (Stmt.nodes_subset_nodesOfAll member found)
  have start : Mirrors Checker.start.chain.scopes (Machine.start transcript).memory.frames :=
    Mirrors.nil.enter
  rcases Option.map_eq_some_iff.mp runs with ⟨ending, ran, concluded⟩
  rcases ending with ⟨flow | flow, after⟩
  · cases concluded
  · have mirrors := (Stmt.execAll_mirrors each [] .start tracked start (List.nil_subset _)
      ran rfl).2
    cases flow <;>
    · cases concluded
      exact mirrors.related name

namespace Sample

/--
The tokens of
`x = 1; s = 0.5; m = [[1, 2]]; { m[0] *= x; x += 3; { x = s; x *= m; s += 1; } }`.
-/
def nestedTokens : TokenStream :=
  [.identifier "x", .symbol .equal, .int 1, .symbol .semicolon,
    .identifier "s", .symbol .equal, .float 0.5, .symbol .semicolon,
    .identifier "m", .symbol .equal, .symbol .openBracket, .symbol .openBracket, .int 1,
    .symbol .comma, .int 2, .symbol .closeBracket, .symbol .closeBracket, .symbol .semicolon,
    .symbol .openBrace,
    .identifier "m", .symbol .openBracket, .int 0, .symbol .closeBracket, .symbol .starEqual,
    .identifier "x", .symbol .semicolon,
    .identifier "x", .symbol .plusEqual, .int 3, .symbol .semicolon,
    .symbol .openBrace,
    .identifier "x", .symbol .equal, .identifier "s", .symbol .semicolon,
    .identifier "x", .symbol .starEqual, .identifier "m", .symbol .semicolon,
    .identifier "s", .symbol .plusEqual, .int 1, .symbol .semicolon,
    .symbol .closeBrace, .symbol .closeBrace].map fun token => ⟨token, default⟩

/-- The innermost block has a variable of its own that takes another type. -/
def nested : Program :=
  ⟨[.assign default (.var default "x") .plain (.int default 1),
    .assign default (.var default "s") .plain (.float default 0.5),
    .assign default (.var default "m") .plain
      (.matrix default [.mk default [.int default 1, .int default 2]]),
    .block default
      [.assign default (.reference default ⟨"m", default⟩ [.int default 0]) (.compound .mul)
        (.var default "x"),
      .assign default (.var default "x") (.compound .add) (.int default 3),
      .block default
        [.assign default (.var default "x") .plain (.var default "s"),
        .assign default (.var default "x") (.compound .mul) (.var default "m"),
        .assign default (.var default "s") (.compound .add) (.int default 1)]]]⟩

/-- The tokens of `x = 1; { x += 0.5; }`. -/
def retypedTokens : TokenStream :=
  [.identifier "x", .symbol .equal, .int 1, .symbol .semicolon, .symbol .openBrace,
    .identifier "x", .symbol .plusEqual, .float 0.5, .symbol .semicolon,
    .symbol .closeBrace].map fun token => ⟨token, default⟩

def retyped : Program :=
  ⟨[.assign default (.var default "x") .plain (.int default 1),
    .block default
      [.assign default (.var default "x") (.compound .add) (.float default 0.5)]]⟩

end Sample

theorem values_match_descriptors_nested :
    ofTokens Sample.nestedTokens = .ok Sample.nested ∧ Sample.nested.check = [] ∧
      ∃ machine, Sample.nested.run 0 (.start .empty) = some ⟨.ok none, machine⟩ ∧
        ∀ name, Option.Rel (fun value descriptor => value.HasKind descriptor.ty)
          (machine.memory.lookup? name)
          ((Checker.start.checkProgram Sample.nested).2.lookup? name) := by
  have parsed : ofTokens Sample.nestedTokens = .ok Sample.nested := rfl
  have accepted : Sample.nested.check = [] := by
    decide +kernel
  have runs : ∃ machine,
      Sample.nested.run 0 (.start .empty) = some ⟨.ok none, machine⟩ := ⟨_, rfl⟩
  rcases runs with ⟨machine, runs⟩
  refine ⟨parsed, accepted, machine, runs, ?_⟩
  apply values_match_descriptors parsed ?_ ?_ ?_ ?_ accepted runs
  · decide +kernel
  · decide +kernel
  · decide +kernel
  · decide +kernel

/-- The proviso is needed: a block makes the variable a float, and the checker forgets it. -/
theorem retyped_values_differ :
    ofTokens Sample.retypedTokens = .ok Sample.retyped ∧
      (∀ node ∈ Sample.retyped.nodes, node.IsStraight) ∧
      (∀ site ∈ Sample.retyped.sites, site.Numeric) ∧
      (∀ site ∈ Sample.retyped.sites, ¬ site.HasDot) ∧ Sample.retyped.check = [] ∧
      ∃ machine value, Sample.retyped.run 0 (.start .empty) = some ⟨.ok none, machine⟩ ∧
        machine.memory.lookup? "x" = some value ∧
        (Checker.start.checkProgram Sample.retyped).2.lookup? "x" = some ⟨.int, [], "x"⟩ ∧
        ¬ value.HasKind .int := by
  have accepted : Sample.retyped.check = [] := by
    decide +kernel
  have known : (Checker.start.checkProgram Sample.retyped).2.lookup? "x" =
      some ⟨.int, [], "x"⟩ := by
    decide +kernel
  refine ⟨rfl, by decide +kernel, by decide +kernel, by decide +kernel, accepted, _, _, rfl, rfl,
    known, ?_⟩
  rintro ⟨number, impossible⟩
  cases impossible

end Program

end MatrixScript
