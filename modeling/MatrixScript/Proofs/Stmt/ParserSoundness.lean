import MatrixScript.Stmt.Parser
import MatrixScript.Proofs.Expr.ParserSoundness
import MatrixScript.Proofs.Stmt.Grammar

/-!
# Readers of statements are sound

The reader of statements yields nothing that the grammar does not derive from the
tokens it took.  An `else` is taken as soon as it can be, so that a statement which
ends open is never left in front of one; this is what the rule for a branch with an
alternative asks for.
-/

namespace MatrixScript

open Reader TokenStream

theorem AssignOp.assignOp?_eq_some_iff {symbol : Symbol} {op : AssignOp} :
    Stmt.assignOp? symbol = some op ↔ (symbol, op) ∈ AssignOp.symbols := by
  cases symbol <;> simp [Stmt.assignOp?, symbols, eq_comm]

namespace Stmt

variable {expr : Reader Expr} {statement : Reader Stmt}

/-! ## Simple statements -/

theorem assignment_reads (reads : Expr.Sound expr .whole) (fuel : Nat) :
    Reads (assignment expr fuel) fun tokens result => Simple result.bare tokens := by
  unfold assignment
  refine Reads.bind (Expr.variableOrReference_reads reads fuel) fun front target left => ?_
  refine Reads.acceptSymbol? (fun symbol op means => ?_) (Reads.unexpected _)
  refine Reads.bind reads fun back value right => ?_
  refine Reads.pure ?_
  rw [AssignOp.assignOp?_eq_some_iff] at means
  rw [List.append_nil]
  exact .assign left means right

theorem returnFrom_reads (reads : Expr.Sound expr .whole) (start : Span) :
    Reads (returnFrom expr start) fun tokens result =>
      Simple result.bare (.keyword .«return» :: tokens) := by
  unfold returnFrom
  refine Reads.peek? fun token => ?_
  split
  · exact Reads.pure fun _ => .returnNothing
  · refine Reads.bind reads fun tokens value derived => ?_
    refine Reads.pure fun _ => ?_
    rw [List.append_nil]
    exact .returnValue derived

theorem printFrom_reads (reads : Expr.Sound expr .whole) (fuel : Nat) (start : Span) :
    Reads (printFrom expr fuel start) fun tokens result =>
      Simple result.bare (.keyword .print :: tokens) := by
  unfold printFrom
  have listed := Reads.items Expr.bare (fun tokens expr => (Phrase.whole expr).Derives tokens)
    reads fuel
  refine (listed.tracked start).bind ?_
  rintro _ ⟨arguments, last⟩ ⟨parts, nonempty, rfl, argumentsAre, each⟩
  refine Reads.pure ?_
  rw [bare, Expr.bareAll_eq_map, argumentsAre, List.append_nil]
  exact .print nonempty each

theorem simple_reads (reads : Expr.Sound expr .whole) (fuel : Nat) :
    Reads (simple expr fuel) fun tokens result => Simple result.bare tokens := by
  intro tokens result rest ran
  unfold simple at ran
  split at ran
  · cases ran
    exact ⟨[⟨_, _⟩], rfl, .«break»⟩
  · cases ran
    exact ⟨[⟨_, _⟩], rfl, .«continue»⟩
  · rcases returnFrom_reads reads _ _ _ _ ran with ⟨taken, rfl, derived⟩
    exact ⟨⟨_, _⟩ :: taken, rfl, derived⟩
  · rcases printFrom_reads reads fuel _ _ _ _ ran with ⟨taken, rfl, derived⟩
    exact ⟨⟨_, _⟩ :: taken, rfl, derived⟩
  · exact assignment_reads reads fuel _ _ _ ran
  · exact absurd ran unexpected_ne_ok

theorem Simple.endsOpen_eq_false {tokens : List Token} {result : Stmt}
    (simple : Simple result tokens) : result.endsOpen = false := by
  cases simple <;> rfl

/-! ## Statements -/

/-- The reader yields statements that its tokens derive. -/
def Sound (reader : Reader Stmt) : Prop :=
  Reads reader fun tokens result => result.bare.Derives tokens

/-- The statement does not go on with the token. -/
def StopsAt (result : Stmt) (next : Option Token) : Prop :=
  result.endsOpen = true → next ≠ some (.keyword .«else»)

/-- The reader leaves no `else` behind a statement that ends open. -/
def Closes (reader : Reader Stmt) : Prop :=
  Leaves reader StopsAt

theorem terminated_reads (reads : Expr.Sound expr .whole) (fuel : Nat) :
    Sound (terminated expr fuel) := by
  unfold terminated
  refine Reads.bind (simple_reads reads fuel) fun tokens result derived => ?_
  refine Reads.expect fun span => ?_
  exact Reads.pure (.simple derived)

theorem terminated_closes (reads : Expr.Sound expr .whole) (fuel : Nat) :
    Closes (terminated expr fuel) := by
  intro tokens result rest ran opens
  rcases bind_eq_ok_iff.mp ran with ⟨read, middle, ranSimple, goesOn⟩
  rcases bind_eq_ok_iff.mp goesOn with ⟨_, _, _, ⟨⟩⟩
  rcases simple_reads reads fuel _ _ _ ranSimple with ⟨_, _, derived⟩
  have closed := derived.endsOpen_eq_false
  rw [endsOpen_bare, opens] at closed
  cases closed

theorem condition_reads (reads : Expr.Sound expr .whole) :
    Reads (condition expr) fun tokens test =>
      ∃ inside, tokens = .symbol .openParen :: (inside ++ [.symbol .closeParen]) ∧
        (Phrase.whole test.bare).Derives inside := by
  unfold condition
  refine Reads.expect fun start => ?_
  refine Reads.bind reads fun inside test derived => ?_
  refine Reads.expect fun close => ?_
  exact Reads.pure ⟨inside, rfl, derived⟩

theorem blockBody_reads (reads : Sound statement) (fuel : Nat) :
    Reads (blockBody statement fuel) fun tokens result =>
      ∃ parts : List (Stmt × List Token),
        tokens = (parts.map Prod.snd).flatten ++ [.symbol .closeBrace] ∧
        bareAll result.1 = parts.map Prod.fst ∧ ∀ part ∈ parts, part.1.Derives part.2 := by
  induction fuel with
  | zero => exact Reads.unexpected _
  | succ fuel ih =>
      rw [blockBody]
      refine Reads.accept? (fun close => Reads.pure ⟨[], rfl, rfl, nofun⟩) ?_
      refine Reads.peek? fun token => ?_
      split
      · exact Reads.unexpected _
      · refine Reads.bind reads fun front head headDerives => ?_
        refine ih.bind ?_
        rintro _ ⟨tail, close⟩ ⟨parts, rfl, tailIs, each⟩
        refine Reads.pure fun _ => ⟨(head.bare, front) :: parts, by simp, ?_, ?_⟩
        · rw [bareAll, tailIs, List.map_cons]
        · exact List.forall_mem_cons.mpr ⟨headDerives, each⟩

theorem blockFrom_reads (reads : Sound statement) (fuel : Nat) (start : Span) :
    Reads (blockFrom statement fuel start) fun tokens result =>
      result.bare.Derives (.symbol .openBrace :: tokens) := by
  unfold blockFrom
  refine (blockBody_reads reads fuel).bind ?_
  rintro _ ⟨body, close⟩ ⟨parts, rfl, bodyIs, each⟩
  refine Reads.pure ?_
  rw [bare, bodyIs, List.append_nil]
  exact .block each

theorem blockFrom_closes (fuel : Nat) (start : Span) :
    Closes (blockFrom statement fuel start) := by
  unfold blockFrom
  refine Leaves.map ?_
  rintro tokens ⟨body, close⟩ rest _ ⟨⟩

theorem branchFrom_reads (exprs : Expr.Sound expr .whole) (reads : Sound statement)
    (closes : Closes statement) (start : Span) :
    Reads (branchFrom expr statement start) fun tokens result =>
      result.bare.Derives (.keyword .«if» :: tokens) := by
  unfold branchFrom
  refine (condition_reads exprs).bind ?_
  rintro _ test ⟨inside, rfl, tests⟩
  refine Reads.bindAccept? reads closes ?_ ?_
  · intro front thenBranch runs notOpen span
    refine Reads.bind reads fun back elseBranch otherwise => ?_
    refine Reads.pure ?_
    have closed : thenBranch.bare.endsOpen = false := by
      rw [endsOpen_bare]
      exact Bool.eq_false_iff.mpr notOpen
    have whole := Derives.alternative tests runs closed otherwise
    simpa [bare] using whole
  · intro front thenBranch runs
    refine Reads.pure ?_
    have whole := Derives.branch tests runs
    simpa [bare] using whole

theorem branchFrom_closes (closes : Closes statement) (start : Span) :
    Closes (branchFrom expr statement start) := by
  unfold branchFrom
  refine Leaves.bind fun test => ?_
  refine Leaves.bind fun thenBranch => ?_
  refine Leaves.accept? (fun span => ?_) ?_
  · exact Leaves.map closes
  · intro token differs _
    exact differs

theorem whileFrom_reads (exprs : Expr.Sound expr .whole) (reads : Sound statement)
    (start : Span) :
    Reads (whileFrom expr statement start) fun tokens result =>
      result.bare.Derives (.keyword .«while» :: tokens) := by
  unfold whileFrom
  refine (condition_reads exprs).bind ?_
  rintro _ test ⟨inside, rfl, tests⟩
  refine Reads.bind reads fun tokens body runs => ?_
  refine Reads.pure ?_
  have whole := Derives.whileLoop tests runs
  simpa [bare] using whole

theorem whileFrom_closes (closes : Closes statement) (start : Span) :
    Closes (whileFrom expr statement start) := by
  unfold whileFrom
  refine Leaves.bind fun test => ?_
  exact Leaves.map closes

theorem forFrom_reads (exprs : Expr.Sound expr .whole) (reads : Sound statement)
    (start : Span) :
    Reads (forFrom expr statement start) fun tokens result =>
      result.bare.Derives (.keyword .«for» :: tokens) := by
  unfold forFrom
  refine Reads.identifier fun name span => ?_
  refine Reads.expect fun _ => ?_
  refine Reads.bind exprs fun low first starts => ?_
  refine Reads.expect fun _ => ?_
  refine Reads.bind exprs fun high last stops => ?_
  refine Reads.bind reads fun tokens body runs => ?_
  refine Reads.pure ?_
  rw [bare, List.append_nil]
  exact .forLoop starts stops runs

theorem forFrom_closes (closes : Closes statement) (start : Span) :
    Closes (forFrom expr statement start) := by
  unfold forFrom
  refine Leaves.bind fun counter => ?_
  refine Leaves.bind fun _ => ?_
  refine Leaves.bind fun first => ?_
  refine Leaves.bind fun _ => ?_
  refine Leaves.bind fun last => ?_
  exact Leaves.map closes

theorem reader_closes (fuel : Nat) : Closes (reader fuel) := by
  induction fuel with
  | zero =>
      intro tokens result rest ran
      exact absurd ran unexpected_ne_ok
  | succ fuel ih =>
      intro tokens result rest ran
      unfold reader at ran
      split at ran
      · exact blockFrom_closes fuel _ _ _ _ ran
      · exact branchFrom_closes ih _ _ _ _ ran
      · exact whileFrom_closes ih _ _ _ _ ran
      · exact forFrom_closes ih _ _ _ _ ran
      · exact terminated_closes (Expr.reader_reads (fuel + 1)) fuel _ _ _ ran

/-- What the reader of statements yields, its tokens spell. -/
theorem reader_reads (fuel : Nat) : Sound (reader fuel) := by
  induction fuel with
  | zero => exact Reads.unexpected _
  | succ fuel ih =>
      have exprs := Expr.reader_reads fuel
      intro tokens result rest ran
      unfold reader at ran
      split at ran
      · rcases blockFrom_reads ih fuel _ _ _ _ ran with ⟨taken, rfl, derived⟩
        exact ⟨⟨_, _⟩ :: taken, rfl, derived⟩
      · rcases branchFrom_reads exprs ih (reader_closes fuel) _ _ _ _ ran with
          ⟨taken, rfl, derived⟩
        exact ⟨⟨_, _⟩ :: taken, rfl, derived⟩
      · rcases whileFrom_reads exprs ih _ _ _ _ ran with ⟨taken, rfl, derived⟩
        exact ⟨⟨_, _⟩ :: taken, rfl, derived⟩
      · rcases forFrom_reads exprs ih _ _ _ _ ran with ⟨taken, rfl, derived⟩
        exact ⟨⟨_, _⟩ :: taken, rfl, derived⟩
      · exact terminated_reads (Expr.reader_reads (fuel + 1)) fuel _ _ _ ran

end Stmt

/-- The tokens of a program are those of its statements, each as its reader took them. -/
theorem Program.statements_use {statement : Reader Stmt} {accounts : TokenStream → Stmt → Prop}
    (uses : Uses statement accounts) (nonempty : ∀ result, ¬ accounts [] result) {fuel : Nat}
    {tokens : TokenStream} {body : List Stmt} (enough : tokens.length ≤ fuel)
    (ran : statements statement fuel tokens = .ok body) :
    ∃ parts : List (Stmt × TokenStream), body = parts.map Prod.fst ∧
      tokens = (parts.map Prod.snd).flatten ∧ ∀ part ∈ parts, accounts part.2 part.1 := by
  induction fuel generalizing tokens body with
  | zero =>
      rw [Nat.le_zero, List.length_eq_zero_iff] at enough
      subst enough
      cases ran
      exact ⟨[], rfl, rfl, nofun⟩
  | succ fuel ih =>
      cases tokens with
      | nil =>
          cases ran
          exact ⟨[], rfl, rfl, nofun⟩
      | cons token others =>
          simp only [statements] at ran
          split at ran
          · cases ran
          · rename_i head rest ranHead
            split at ran
            · cases ran
            · rename_i tail ranTail
              cases ran
              rcases uses _ _ _ ranHead with ⟨taken, splits, accounted⟩
              -- A statement has a first token, so less is left than the fuel.
              have positive : 0 < taken.length := by
                refine List.length_pos_iff.mpr ?_
                rintro rfl
                exact nonempty head accounted
              have lengths := congrArg List.length splits
              rw [List.length_append] at lengths
              rcases ih (by omega) ranTail with ⟨parts, rfl, rfl, each⟩
              exact ⟨(head, taken) :: parts, rfl, splits,
                List.forall_mem_cons.mpr ⟨accounted, each⟩⟩

end MatrixScript
