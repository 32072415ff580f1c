import MatrixScript.Expr.Parser
import MatrixScript.Proofs.Rejection

/-!
# Where readers of expressions reject

Each reader of expressions blames only spans that fit the text, given that the reader of nested
expressions does; `Expr.reader_blames` ties the knot.  Nearly all rejections are at the next token.
The exception is a reference with colons only, which is blamed from its name to its bracket.
-/

namespace MatrixScript.Expr

open Reader

variable {source : String} {nested operand : Reader Expr}

/-! ## References, lists and brackets -/

theorem coordinates_blames (nestedBlames : BlamesOnly source nested) (fuel : Nat)
    (sliced : Bool) : BlamesOnly source (coordinates nested fuel sliced) := by
  induction fuel generalizing sliced with
  | zero => exact .unexpected _
  | succ fuel ih =>
      rw [coordinates]
      refine Blames.accept? (fun _ _ => ?_) ?_
      · exact Blames.accept? (fun _ _ => ih true) (.pure trivial)
      · cases sliced with
        | true => exact .reject _
        | false =>
            refine Blames.peek? fun token => ?_
            split
            · exact .unexpected _
            · refine nestedBlames.bind fun head _ => ?_
              refine Blames.accept? (fun _ _ => ?_) (.pure trivial)
              exact (ih false).bind fun tail _ => .pure trivial

theorem referenceFrom_blames (nestedBlames : BlamesOnly source nested) (fuel : Nat)
    {name : Located String} (nameFits : name.span.Fits source) :
    BlamesOnly source (referenceFrom nested fuel name) := by
  unfold referenceFrom
  refine Blames.expect fun _ _ => ?_
  refine (coordinates_blames nestedBlames fuel false).bind fun list _ => ?_
  refine Blames.expect fun close closeFits => ?_
  cases list with
  | nil => exact .rejectAt _ (nameFits.merge closeFits)
  | cons head tail => exact .pure trivial

theorem variableOrReference_blames (nestedBlames : BlamesOnly source nested) (fuel : Nat) :
    BlamesOnly source (variableOrReference nested fuel) := by
  unfold variableOrReference
  refine Blames.identifier fun name nameFits => ?_
  refine Blames.peek? fun token => ?_
  split
  · exact referenceFrom_blames nestedBlames fuel nameFits
  · exact .pure trivial

theorem callFrom_blames (nestedBlames : BlamesOnly source nested) (fuel : Nat)
    (builtin : Builtin) (start : Span) :
    BlamesOnly source (callFrom nested fuel builtin start) := by
  unfold callFrom
  refine Blames.expect fun _ _ => ?_
  exact (itemsUntil_blames nestedBlames fuel .closeParen).bind fun arguments _ => .pure trivial

theorem row_blames (nestedBlames : BlamesOnly source nested) (fuel : Nat) :
    BlamesOnly source (row nested fuel) := by
  unfold row
  refine Blames.expect fun _ _ => ?_
  exact (itemsUntil_blames nestedBlames fuel .closeBracket).bind fun cells _ => .pure trivial

theorem arrayFrom_blames (nestedBlames : BlamesOnly source nested) (fuel : Nat) (start : Span) :
    BlamesOnly source (arrayFrom nested fuel start) := by
  unfold arrayFrom
  refine Blames.peek? fun token => ?_
  split
  · refine (items_blames (row_blames nestedBlames fuel) fuel).bind fun rows _ => ?_
    exact Blames.expect fun close _ => .pure trivial
  · exact (itemsUntil_blames nestedBlames fuel .closeBracket).bind fun elements _ => .pure trivial

theorem parenthesizedFrom_blames (nestedBlames : BlamesOnly source nested) (start : Span) :
    BlamesOnly source (parenthesizedFrom nested start) := by
  unfold parenthesizedFrom
  refine nestedBlames.bind fun inner _ => ?_
  exact Blames.expect fun close _ => .pure trivial

theorem primary_blames (nestedBlames : BlamesOnly source nested) (fuel : Nat) :
    BlamesOnly source (primary nested fuel) := by
  intro tokens fits
  unfold primary
  split
  · exact Blames.unexpected _ _ fits
  · rename_i token span rest
    have restFits : TokenStream.Fits source rest := (List.forall_mem_cons.mp fits).2
    split
    · exact ⟨trivial, restFits⟩
    · exact ⟨trivial, restFits⟩
    · exact ⟨trivial, restFits⟩
    · exact variableOrReference_blames nestedBlames fuel _ fits
    · exact arrayFrom_blames nestedBlames fuel span rest restFits
    · exact parenthesizedFrom_blames nestedBlames span rest restFits
    · exact Blames.unexpected _ _ fits
    · split
      · exact callFrom_blames nestedBlames fuel _ span rest restFits
      · exact Blames.unexpected _ _ fits

/-! ## Operators -/

theorem quotes_blames (fuel : Nat) (expr : Expr) : BlamesOnly source (quotes fuel expr) := by
  induction fuel generalizing expr with
  | zero => exact .pure trivial
  | succ fuel ih =>
      rw [quotes]
      exact Blames.accept? (fun _ _ => ih _) (.pure trivial)

theorem quoted_blames (nestedBlames : BlamesOnly source nested) (fuel : Nat) :
    BlamesOnly source (quoted nested fuel) := by
  unfold quoted
  exact (primary_blames nestedBlames fuel).bind fun expr _ => quotes_blames fuel expr

theorem signed_blames (nestedBlames : BlamesOnly source nested) (bound fuel : Nat) :
    BlamesOnly source (signed nested bound fuel) := by
  induction fuel with
  | zero => exact quoted_blames nestedBlames bound
  | succ fuel ih =>
      rw [signed]
      refine Blames.accept? (fun _ _ => ?_) (quoted_blames nestedBlames bound)
      exact ih.bind fun expr _ => .pure trivial

theorem chainFrom_blames (operandBlames : BlamesOnly source operand)
    (operator? : Symbol → Option BinaryOp) (fuel : Nat) (left : Expr) :
    BlamesOnly source (chainFrom operator? operand fuel left) := by
  induction fuel generalizing left with
  | zero => exact .pure trivial
  | succ fuel ih =>
      rw [chainFrom]
      refine Blames.acceptSymbol? fun op? => ?_
      cases op? with
      | none => exact .pure trivial
      | some op => exact operandBlames.bind fun right _ => ih _

theorem chain_blames (operandBlames : BlamesOnly source operand)
    (operator? : Symbol → Option BinaryOp) (fuel : Nat) :
    BlamesOnly source (chain operator? operand fuel) := by
  unfold chain
  exact operandBlames.bind fun left _ => chainFrom_blames operandBlames operator? fuel left

theorem arithmetic_blames (nestedBlames : BlamesOnly source nested) (fuel : Nat) :
    BlamesOnly source (arithmetic nested fuel) := by
  have signs := signed_blames nestedBlames fuel fuel
  have dotProducts := chain_blames signs dotMultiplicative? fuel
  have products := chain_blames dotProducts multiplicative? fuel
  have dotSums := chain_blames products dotAdditive? fuel
  exact chain_blames dotSums additive? fuel

theorem comparison_blames (nestedBlames : BlamesOnly source nested) (fuel : Nat) :
    BlamesOnly source (comparison nested fuel) := by
  unfold comparison
  refine (arithmetic_blames nestedBlames fuel).bind fun left _ => ?_
  refine Blames.acceptSymbol? fun op? => ?_
  cases op? with
  | none => exact .pure trivial
  | some op => exact (arithmetic_blames nestedBlames fuel).bind fun right _ => .pure trivial

theorem reader_blames (fuel : Nat) : BlamesOnly source (reader fuel) := by
  induction fuel with
  | zero => exact .unexpected _
  | succ fuel ih => exact comparison_blames ih fuel

end MatrixScript.Expr
