import Mathlib.Data.List.Basic
import MatrixScript.Stmt.Parser
import MatrixScript.Proofs.Expr.Rejection

/-!
# Where a text is rejected

The readers of statements blame only spans that fit the text, and so does the reader of whole
programs.  An error of the scanner fits it too.  What remains is the end of the text, to which
no token belongs: an error there has an empty span, and its line is the number of lines.

That is the line behind all line breaks, unless the text ends with one.  A final line break begins
no further line, so an error behind it is placed on the line that it ends, although its span
begins on the next: `Program.errors_located` has this one exception.
-/

namespace MatrixScript

namespace Stmt

open Reader

variable {source : String} {expr : Reader Expr} {statement : Reader Stmt}

/-! ## Statements without statements inside -/

theorem condition_blames (exprBlames : BlamesOnly source expr) :
    BlamesOnly source (condition expr) := by
  unfold condition
  refine Blames.expect fun _ _ => ?_
  refine exprBlames.bind fun test _ => ?_
  exact Blames.expect fun _ _ => .pure trivial

theorem assignment_blames (exprBlames : BlamesOnly source expr) (fuel : Nat) :
    BlamesOnly source (assignment expr fuel) := by
  unfold assignment
  refine (Expr.variableOrReference_blames exprBlames fuel).bind fun target _ => ?_
  refine Blames.acceptSymbol? fun op? => ?_
  cases op? with
  | none => exact .unexpected _
  | some op => exact exprBlames.bind fun value _ => .pure trivial

theorem returnFrom_blames (exprBlames : BlamesOnly source expr) (start : Span) :
    BlamesOnly source (returnFrom expr start) := by
  unfold returnFrom
  refine Blames.peek? fun token => ?_
  split
  · exact .pure trivial
  · exact exprBlames.bind fun value _ => .pure trivial

theorem printFrom_blames (exprBlames : BlamesOnly source expr) (fuel : Nat) (start : Span) :
    BlamesOnly source (printFrom expr fuel start) := by
  unfold printFrom
  exact ((items_blames exprBlames fuel).tracked start).bind fun _ _ => .pure trivial

theorem simple_blames (exprBlames : BlamesOnly source expr) (fuel : Nat) :
    BlamesOnly source (simple expr fuel) := by
  intro tokens fits
  unfold simple
  split
  · exact ⟨trivial, (List.forall_mem_cons.mp fits).2⟩
  · exact ⟨trivial, (List.forall_mem_cons.mp fits).2⟩
  · exact returnFrom_blames exprBlames _ _ (List.forall_mem_cons.mp fits).2
  · exact printFrom_blames exprBlames fuel _ _ (List.forall_mem_cons.mp fits).2
  · exact assignment_blames exprBlames fuel _ fits
  · exact Blames.unexpected _ _ fits

theorem terminated_blames (exprBlames : BlamesOnly source expr) (fuel : Nat) :
    BlamesOnly source (terminated expr fuel) := by
  unfold terminated
  refine (simple_blames exprBlames fuel).bind fun result _ => ?_
  exact Blames.expect fun _ _ => .pure trivial

/-! ## Blocks, branches and loops -/

theorem blockBody_blames (statementBlames : BlamesOnly source statement) (fuel : Nat) :
    BlamesOnly source (blockBody statement fuel) := by
  induction fuel with
  | zero => exact .unexpected _
  | succ fuel ih =>
      rw [blockBody]
      refine Blames.accept? (fun _ _ => .pure trivial) ?_
      refine Blames.peek? fun token => ?_
      cases token with
      | none => exact .unexpected _
      | some token =>
          refine statementBlames.bind fun head _ => ?_
          exact ih.bind fun tail _ => .pure trivial

theorem blockFrom_blames (statementBlames : BlamesOnly source statement) (fuel : Nat)
    (start : Span) : BlamesOnly source (blockFrom statement fuel start) := by
  unfold blockFrom
  exact (blockBody_blames statementBlames fuel).bind fun body _ => .pure trivial

theorem branchFrom_blames (exprBlames : BlamesOnly source expr)
    (statementBlames : BlamesOnly source statement) (start : Span) :
    BlamesOnly source (branchFrom expr statement start) := by
  unfold branchFrom
  refine (condition_blames exprBlames).bind fun test _ => ?_
  refine statementBlames.bind fun thenBranch _ => ?_
  refine Blames.accept? (fun _ _ => ?_) (.pure trivial)
  exact statementBlames.bind fun elseBranch _ => .pure trivial

theorem whileFrom_blames (exprBlames : BlamesOnly source expr)
    (statementBlames : BlamesOnly source statement) (start : Span) :
    BlamesOnly source (whileFrom expr statement start) := by
  unfold whileFrom
  refine (condition_blames exprBlames).bind fun test _ => ?_
  exact statementBlames.bind fun body _ => .pure trivial

theorem forFrom_blames (exprBlames : BlamesOnly source expr)
    (statementBlames : BlamesOnly source statement) (start : Span) :
    BlamesOnly source (forFrom expr statement start) := by
  unfold forFrom
  refine Blames.identifier fun counter _ => ?_
  refine Blames.expect fun _ _ => ?_
  refine exprBlames.bind fun first _ => ?_
  refine Blames.expect fun _ _ => ?_
  refine exprBlames.bind fun last _ => ?_
  exact statementBlames.bind fun body _ => .pure trivial

theorem reader_blames (fuel : Nat) : BlamesOnly source (reader fuel) := by
  induction fuel with
  | zero => exact .unexpected _
  | succ fuel ih =>
      have exprBlames : BlamesOnly source (Expr.reader fuel) := Expr.reader_blames fuel
      intro tokens fits
      rw [reader]
      dsimp only
      split
      · exact blockFrom_blames ih fuel _ _ (List.forall_mem_cons.mp fits).2
      · exact branchFrom_blames exprBlames ih _ _ (List.forall_mem_cons.mp fits).2
      · exact whileFrom_blames exprBlames ih _ _ (List.forall_mem_cons.mp fits).2
      · exact forFrom_blames exprBlames ih _ _ (List.forall_mem_cons.mp fits).2
      · exact terminated_blames (Expr.reader_blames (fuel + 1)) fuel _ fits

end Stmt

/-! ## Programs -/

namespace Program

variable {source : String}

theorem statements_blame {statement : Reader Stmt}
    (statementBlames : Reader.BlamesOnly source statement) {fuel : Nat} {tokens : TokenStream}
    {rejection : Rejection} (fits : tokens.Fits source)
    (rejects : statements statement fuel tokens = .error rejection) :
    ∀ span ∈ rejection.span?, span.Fits source := by
  fun_induction statements statement fuel tokens with
  | case1 => cases rejects
  | case2 => cases rejects
  | case3 fuel tokens goesOn first ran =>
      cases rejects
      have settles := statementBlames tokens fits
      rw [ran] at settles
      exact settles
  | case4 fuel tokens goesOn head rest ran later tailRan ih =>
      have settles := statementBlames tokens fits
      rw [ran] at settles
      cases rejects
      exact ih settles.2 tailRan
  | case5 => cases rejects

theorem ofTokens_blames {tokens : TokenStream} {rejection : Rejection} (fits : tokens.Fits source)
    (rejects : ofTokens tokens = .error rejection) :
    ∀ span ∈ rejection.span?, span.Fits source := by
  rw [ofTokens] at rejects
  split at rejects
  · rename_i ran
    cases rejects
    exact statements_blame (Stmt.reader_blames _) fits ran
  · cases rejects

/-! ## The end of the text -/

theorem lineBreaksBefore_end (source : String) :
    lineBreaksBefore source source.utf8ByteSize = source.toList.count '\n' := by
  rw [← Text.byteLength_toList]
  exact lineBreaksBefore_byteLength (List.append_nil _).symm

/-- The lines of a text are counted by its line breaks, and a final one begins no further line. -/
theorem endSpan_line (source : String) :
    (endSpan source).line = (if source.toList.getLast? = some '\n' then 0 else 1) +
      lineBreaksBefore source source.utf8ByteSize := by
  rw [lineBreaksBefore_end, endSpan, lineCount]
  cases last : source.toList.getLast? with
  | none =>
      rw [List.getLast?_eq_none_iff.mp last]
      rfl
  | some char =>
      by_cases isBreak : char = '\n'
      · subst isBreak
        have positive : 0 < source.toList.count '\n' :=
          List.count_pos_iff.mpr (List.mem_of_getLast? last)
        simp only [if_true]
        omega
      · have different : some char ≠ some '\n' := fun same => isBreak (Option.some.inj same)
        simp only [if_neg isBreak, if_neg different]
        omega

end Program

/-- The span begins behind the line break with which the text ends. -/
def Span.BehindFinalBreak (source : String) (span : Span) : Prop :=
  span.start = source.utf8ByteSize ∧ source.toList.getLast? = some '\n'

/--
The span lies in the text, and it is on the line behind the line breaks before it, except that
behind the final line break of the text it is still on the line that this break ends.
-/
structure Span.Locates (source : String) (span : Span) : Prop where
  ordered : span.start ≤ span.stop
  inside : span.stop ≤ source.utf8ByteSize
  line : ¬ span.BehindFinalBreak source → span.line = 1 + lineBreaksBefore source span.start
  finalLine : span.BehindFinalBreak source → span.line = lineBreaksBefore source span.start

theorem Span.Fits.locates {source : String} {span : Span} (fits : span.Fits source) :
    span.Locates source := by
  refine ⟨Nat.le_of_lt fits.nonempty, fits.inside, fun _ => fits.line, ?_⟩
  intro behind
  have before := Nat.lt_of_lt_of_le fits.nonempty fits.inside
  exact absurd behind.1 (Nat.ne_of_lt before)

namespace Program

theorem endSpan_locates (source : String) : (endSpan source).Locates source := by
  have line := endSpan_line source
  refine ⟨Nat.le_refl _, Nat.le_refl _, ?_, ?_⟩
  · intro notBehind
    rw [if_neg fun isBreak => notBehind ⟨rfl, isBreak⟩] at line
    exact line
  · intro behind
    rw [if_pos behind.2, Nat.zero_add] at line
    exact line

/--
Whatever text is rejected, the error has a span that lies in the text and knows its line.  The only
exception are errors at the end of a text that ends with a line break: their line is one less than
the rule for lines would have it.
-/
theorem errors_located {source : String} {error : SourceError}
    (rejects : Token.scan source = .error error ∨ parse source = .error error) :
    ∃ span : Span, error.span? = some span ∧ span.Locates source := by
  have scanning (fails : Token.scan source = .error error) :
      ∃ span : Span, error.span? = some span ∧ span.Locates source := by
    rcases Token.fits_of_scan_error fails with ⟨span, isSpan, fits⟩
    exact ⟨span, isSpan, fits.locates⟩
  rcases rejects with fails | rejects
  · exact scanning fails
  · unfold parse at rejects
    split at rejects
    · rename_i fails
      cases rejects
      exact scanning fails
    · rename_i tokens scans
      split at rejects
      · rename_i rejection ran
        cases rejects
        refine ⟨_, rfl, ?_⟩
        have fits : TokenStream.Fits source tokens := fun token member =>
          ((Token.scan_eq_ok_iff.mp scans).standsIn token member).fits
        cases blamed : rejection.span? with
        | none => exact endSpan_locates source
        | some span => exact (ofTokens_blames fits ran span blamed).locates
      · cases rejects

theorem rejects_of_map {source : String} {error : SourceError}
    (fails : (parse source).map (fun _ => ()) = .error error) : parse source = .error error := by
  cases parses : parse source with
  | error found =>
      rw [parses] at fails
      cases fails
      rfl
  | ok program =>
      rw [parses] at fails
      cases fails

/-- A reference with colons only, blamed from its name on one line to its bracket on the next. -/
def Sample.colonsOnly : String := "x = \"é\";\nx = m[:,\n:];"

theorem errors_located_unfinished :
    parse Sample.colonsOnly =
        .error (.grammatical "reference needs at least one explicit coordinate" ⟨14, 21, 2⟩) ∧
      (⟨14, 21, 2⟩ : Span).Locates Sample.colonsOnly ∧
      parse "x = [1,\n2" = .error (.grammatical "expected `]`, found end of input" ⟨9, 9, 2⟩) ∧
      (⟨9, 9, 2⟩ : Span).Locates "x = [1,\n2" := by
  have colonsOnly : parse Sample.colonsOnly =
      .error (.grammatical "reference needs at least one explicit coordinate" ⟨14, 21, 2⟩) :=
    rejects_of_map (by decide +kernel)
  have unfinished : parse "x = [1,\n2" =
      .error (.grammatical "expected `]`, found end of input" ⟨9, 9, 2⟩) :=
    rejects_of_map (by decide +kernel)
  rcases errors_located (.inr colonsOnly) with ⟨_, ⟨⟩, inside⟩
  rcases errors_located (.inr unfinished) with ⟨_, ⟨⟩, atEnd⟩
  exact ⟨colonsOnly, inside, unfinished, atEnd⟩

/-- Behind a final line break the line of an error is not that of its span. -/
theorem final_break_miscounted :
    parse "x = 1;\ny =\n" =
        .error (.grammatical "expected expression, found end of input" ⟨11, 11, 2⟩) ∧
      1 + lineBreaksBefore "x = 1;\ny =\n" 11 = 3 :=
  ⟨rejects_of_map (by decide +kernel), by decide +kernel⟩

end Program

end MatrixScript
