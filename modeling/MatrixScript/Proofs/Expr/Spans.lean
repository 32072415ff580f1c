import MatrixScript.Expr.Parser
import MatrixScript.Proofs.Node
import MatrixScript.Proofs.Expr.ParserSoundness

/-!
# Spans of expressions that were read

The reader of expressions joins the spans of the tokens it takes.  When these are in order,
as the tokens of a text are, every node of its result covers its tokens.  Each reader has
its statement, given one for nested expressions; `Expr.reader_covers` ties the knot.
-/

namespace MatrixScript

open Reader TokenStream

/-! ## Lists -/

/-- When they are in order, the tokens that the reader takes are covered by its result. -/
def Reader.Covers {α : Type} (reader : Reader α) (node : α → Node) : Prop :=
  Uses reader fun taken result => Ordered taken → (node result).Covers taken

/-- The result of the reader covers the tokens it takes together with those before them. -/
def Reader.Completes {α : Type} (reader : Reader α) (node : α → Node) (before : TokenStream) :
    Prop :=
  Uses reader fun taken result =>
    Ordered (before ++ taken) → (node result).Covers (before ++ taken)

namespace Reader

variable {α : Type} {item : Reader α} {node : α → Node}

theorem moreItems_uses (covers : Covers item node) (fuel : Nat) :
    Uses (moreItems item fuel) fun taken list =>
      Ordered taken → Piece.Spell (Piece.following (list.map node)) taken := by
  induction fuel with
  | zero => exact Uses.pure fun _ => .nil
  | succ fuel ih =>
      rw [moreItems]
      refine Uses.accept? (fun comma => ?_) (Uses.pure fun _ => .nil)
      refine Uses.bind covers fun front head headCovers => ?_
      refine ih.bind fun back tail tailSpell => ?_
      refine Uses.pure fun ordered => ?_
      rw [List.append_nil] at ordered ⊢
      exact .token (.of_covers (headCovers ordered.tail.left) (tailSpell ordered.tail.right))

theorem items_uses (covers : Covers item node) (fuel : Nat) :
    Uses (items item fuel) fun taken list =>
      Ordered taken → Piece.Spell (Piece.listed (list.map node)) taken := by
  unfold items
  refine Uses.bind covers fun front head headCovers => ?_
  refine (moreItems_uses covers fuel).bind fun back tail tailSpell => ?_
  refine Uses.pure fun ordered => ?_
  rw [List.append_nil] at ordered ⊢
  exact .of_covers (headCovers ordered.left) (tailSpell ordered.right)

theorem itemsUntil_uses (covers : Covers item node) (fuel : Nat) (close : Symbol) :
    Uses (itemsUntil item fuel close) fun taken result =>
      ∃ inside, taken = inside ++ [⟨.symbol close, result.2⟩] ∧
        (Ordered inside → Piece.Spell (Piece.listed (result.1.map node)) inside) := by
  unfold itemsUntil
  refine Uses.accept? (fun span => Uses.pure ⟨[], rfl, fun _ => .nil⟩) ?_
  refine (items_uses covers fuel).bind fun inside list spell => ?_
  refine Uses.expect fun span => ?_
  exact Uses.pure ⟨inside, rfl, spell⟩

end Reader

/-- Two nodes with a symbol between them are spelled up to the end of the second. -/
theorem Node.Covers.join {left right : Node} {front back : TokenStream} {symbol : Symbol}
    {mark : Span} (leftCovers : left.Covers front)
    (ordered : Ordered (front ++ ⟨.symbol symbol, mark⟩ :: back))
    (rightCovers : right.Covers back) :
    Piece.Spell [.node left, .symbol symbol, .node right]
        (front ++ ⟨.symbol symbol, mark⟩ :: back) ∧
      extent? (front ++ ⟨.symbol symbol, mark⟩ :: back) =
        some (left.span.merge right.span) := by
  constructor
  · exact .of_covers leftCovers (.token (.of_covers_only rightCovers))
  · exact ordered.extent?_merge front [_] leftCovers.extent rightCovers.extent

/-! ## Expressions -/

theorem Level.symbol_eq_of_operator? {level : Level} {symbol : Symbol} {op : BinaryOp}
    (means : level.operator? symbol = some op) : symbol = op.symbol := by
  rw [Level.operator?_eq_some_iff] at means
  cases level <;>
    simp only [operators, List.mem_cons, List.not_mem_nil, or_false, Prod.mk.injEq] at means <;>
    rcases means with ⟨rfl, rfl⟩ | ⟨rfl, rfl⟩ <;> rfl

theorem Comparison.symbol_eq_of_comparison? {symbol : Symbol} {op : Comparison}
    (means : Expr.comparison? symbol = some op) : symbol = op.symbol := by
  cases symbol <;> cases means <;> rfl

namespace Expr

variable {nested : Reader Expr} {expr : Expr} {tokens : TokenStream}

theorem pieces_withSpan (span : Span) (colons : Nat) (expr : Expr) :
    (expr.withSpan span).pieces colons = expr.pieces colons := by
  cases expr with
  | unary _ op operand => cases op <;> rfl
  | _ => rfl

theorem covers_of_spell (colons : Nat) (spell : Piece.Spell (expr.pieces colons) tokens)
    (reaches : extent? tokens = some expr.span) : (Node.expr expr).Covers tokens := by
  refine ⟨colons, 0, ?_, reaches⟩
  simpa [Node.pieces] using spell

/-- Parentheses around an expression widen its span, and leave no other trace. -/
theorem covers_parenthesized {inside : TokenStream} {opening closing : Span}
    (covers : (Node.expr expr).Covers inside)
    (ordered : Ordered
      (⟨.symbol .openParen, opening⟩ :: (inside ++ [⟨.symbol .closeParen, closing⟩]))) :
    (Node.expr (expr.withSpan (opening.merge closing))).Covers
      (⟨.symbol .openParen, opening⟩ :: (inside ++ [⟨.symbol .closeParen, closing⟩])) := by
  rcases covers with ⟨colons, parentheses, spell, _⟩
  refine ⟨colons, parentheses + 1, ?_, ?_⟩
  -- The new parenthesis joins the closing ones on their right, the opening ones on their left.
  · have last : Piece.Spell [.symbol .closeParen] [⟨.symbol .closeParen, closing⟩] := .token .nil
    have closed := spell.append last
    rw [Node.pieces, List.append_assoc, ← List.replicate_succ'] at closed
    rw [Node.pieces, pieces_withSpan, List.replicate_succ, List.cons_append, List.cons_append]
    exact .token closed
  · rw [Node.span, span_withSpan]
    exact ordered.extent?_enclosed inside

theorem row_covers (covers : Covers nested .expr) (fuel : Nat) :
    Covers (row nested fuel) .row := by
  unfold row Covers
  refine Uses.expect fun start => ?_
  refine (itemsUntil_uses covers fuel .closeBracket).bind ?_
  rintro _ ⟨cells, close⟩ ⟨inside, rfl, spell⟩
  refine Uses.pure fun ordered => ?_
  rw [List.append_nil] at ordered ⊢
  refine ⟨0, 0, ?_, ?_⟩
  · exact .token ((spell ordered.tail.left).append (.token .nil))
  · exact ordered.extent?_enclosed inside

theorem callFrom_completes (covers : Covers nested .expr) (fuel : Nat) (builtin : Builtin)
    (start : Span) :
    Completes (callFrom nested fuel builtin start) .expr [⟨.keyword builtin.keyword, start⟩] := by
  unfold callFrom Completes
  refine Uses.expect fun opening => ?_
  refine (itemsUntil_uses covers fuel .closeParen).bind ?_
  rintro _ ⟨arguments, close⟩ ⟨inside, rfl, spell⟩
  refine Uses.pure fun ordered => ?_
  rw [List.append_nil] at ordered ⊢
  refine covers_of_spell 0 ?_ ?_
  · exact .token (.token ((spell ordered.right.tail.left).append (.token .nil)))
  · exact ordered.extent?_enclosed (_ :: inside)

theorem parenthesizedFrom_completes (covers : Covers nested .expr) (start : Span) :
    Completes (parenthesizedFrom nested start) .expr [⟨.symbol .openParen, start⟩] := by
  unfold parenthesizedFrom Completes
  refine Uses.bind covers fun inside inner innerCovers => ?_
  refine Uses.expect fun close => ?_
  exact Uses.pure fun ordered => covers_parenthesized (innerCovers ordered.right.left) ordered

theorem arrayFrom_completes (covers : Covers nested .expr) (fuel : Nat) (start : Span) :
    Completes (arrayFrom nested fuel start) .expr [⟨.symbol .openBracket, start⟩] := by
  unfold arrayFrom Completes
  refine Uses.peek? fun token => ?_
  split
  · refine (items_uses (row_covers covers fuel) fuel).bind fun inside rows spell => ?_
    refine Uses.expect fun close => ?_
    refine Uses.pure fun _ ordered => ?_
    refine covers_of_spell 0 ?_ ?_
    · exact .token ((spell ordered.right.left).append (.token .nil))
    · exact ordered.extent?_enclosed inside
  · refine (itemsUntil_uses covers fuel .closeBracket).bind ?_
    rintro _ ⟨elements, close⟩ ⟨inside, rfl, spell⟩
    refine Uses.pure fun _ ordered => ?_
    rw [List.append_nil] at ordered ⊢
    refine covers_of_spell 0 ?_ ?_
    · exact .token ((spell ordered.right.left).append (.token .nil))
    · exact ordered.extent?_enclosed inside

/-- Behind a colon there are only colons; the other coordinates stand before them. -/
theorem coordinates_uses (covers : Covers nested .expr) (fuel : Nat) (sliced : Bool) :
    Uses (coordinates nested fuel sliced) fun taken exprs =>
      (exprs = [] ∧ ∃ count, spelling taken = .symbol .colon :: trailingColons count) ∨
      (sliced = false ∧ exprs ≠ [] ∧ ∃ count, Ordered taken →
        Piece.Spell (Piece.listed (exprs.map .expr) ++ (trailingColons count).map .token)
          taken) := by
  induction fuel generalizing sliced with
  | zero => exact Uses.unexpected _
  | succ fuel ih =>
      rw [coordinates]
      refine Uses.accept? (fun span => ?_) ?_
      · refine Uses.accept? (fun comma => ?_) (Uses.pure (.inl ⟨rfl, 0, rfl⟩))
        refine (ih true).weaken ?_
        rintro taken exprs (⟨rfl, count, spelled⟩ | ⟨⟨⟩, _⟩)
        refine .inl ⟨rfl, count + 1, ?_⟩
        rw [trailingColons_succ, ← spelled]
        rfl
      · cases sliced with
        | true => exact Uses.reject _
        | false =>
            rw [if_neg Bool.false_ne_true]
            refine Uses.peek? fun token => ?_
            split
            · exact Uses.unexpected _
            · refine Uses.bind covers fun front head headCovers => ?_
              refine Uses.accept? (fun comma => ?_) ?_
              · refine (ih false).bind ?_
                rintro back tail (⟨rfl, count, spelled⟩ | ⟨_, nonempty, count, spell⟩)
                · refine Uses.pure fun _ => .inr ⟨rfl, List.cons_ne_nil _ _, count + 1, ?_⟩
                  intro ordered
                  rw [List.append_nil] at ordered ⊢
                  refine .of_covers (headCovers ordered.left) ?_
                  rw [trailingColons_succ, ← spelled]
                  exact .token (Piece.spell_tokens back)
                · refine Uses.pure fun _ => .inr ⟨rfl, List.cons_ne_nil _ _, count, ?_⟩
                  intro ordered
                  rw [List.append_nil] at ordered ⊢
                  refine .of_covers (headCovers ordered.left) ?_
                  cases tail with
                  | nil => exact absurd rfl nonempty
                  | cons second others => exact .token (spell ordered.right.tail)
              · refine Uses.pure fun _ => .inr ⟨rfl, List.cons_ne_nil _ _, 0, ?_⟩
                intro ordered
                exact .of_covers (headCovers ordered.left) .nil

theorem referenceFrom_completes (covers : Covers nested .expr) (fuel : Nat)
    (name : Located String) :
    Completes (referenceFrom nested fuel name) .expr [⟨.identifier name.item, name.span⟩] := by
  unfold referenceFrom Completes
  refine Uses.expect fun opening => ?_
  refine (coordinates_uses covers fuel false).bind ?_
  rintro inside exprs (⟨rfl, _⟩ | ⟨_, nonempty, count, spell⟩)
  · exact Uses.expect fun close => Uses.rejectAt _ _
  · refine Uses.expect fun close => ?_
    cases exprs with
    | nil => exact absurd rfl nonempty
    | cons head tail =>
        refine Uses.pure fun ordered => ?_
        refine covers_of_spell count ?_ ?_
        · refine .of_covers (Node.covers_name name) (.token ?_)
          exact (spell ordered.right.tail.left).append (.token .nil)
        · exact ordered.extent?_enclosed (_ :: inside)

theorem variableOrReference_covers (covers : Covers nested .expr) (fuel : Nat) :
    Covers (variableOrReference nested fuel) .expr := by
  unfold variableOrReference Covers
  refine Uses.identifier fun name span => ?_
  refine Uses.peek? fun token => ?_
  split
  · exact (referenceFrom_completes covers fuel ⟨name, span⟩).weaken fun _ _ whole _ => whole
  · exact Uses.pure fun _ _ => covers_of_spell 0 (.token .nil) rfl

theorem primary_covers (covers : Covers nested .expr) (fuel : Nat) :
    Covers (primary nested fuel) .expr := by
  intro tokens result rest ran
  unfold primary at ran
  split at ran
  · exact absurd ran unexpected_ne_ok
  · rename_i token span others
    split at ran
    · cases ran
      exact ⟨[⟨_, span⟩], rfl, fun _ => covers_of_spell 0 (.token .nil) rfl⟩
    · cases ran
      exact ⟨[⟨_, span⟩], rfl, fun _ => covers_of_spell 0 (.token .nil) rfl⟩
    · cases ran
      exact ⟨[⟨_, span⟩], rfl, fun _ => covers_of_spell 0 (.token .nil) rfl⟩
    · exact variableOrReference_covers covers fuel _ _ _ ran
    · rcases arrayFrom_completes covers fuel span _ _ _ ran with ⟨taken, rfl, whole⟩
      exact ⟨⟨_, span⟩ :: taken, rfl, whole⟩
    · rcases parenthesizedFrom_completes covers span _ _ _ ran with ⟨taken, rfl, whole⟩
      exact ⟨⟨_, span⟩ :: taken, rfl, whole⟩
    · exact absurd ran unexpected_ne_ok
    · split at ran
      · rename_i builtin means
        rw [Builtin.builtin?_eq_some_iff] at means
        subst means
        rcases callFrom_completes covers fuel builtin span _ _ _ ran with ⟨taken, rfl, whole⟩
        exact ⟨⟨_, span⟩ :: taken, rfl, whole⟩
      · exact absurd ran unexpected_ne_ok

theorem quotes_completes {front : TokenStream} {operand : Expr}
    (covers : Ordered front → (Node.expr operand).Covers front) (fuel : Nat) :
    Completes (quotes fuel operand) .expr front := by
  induction fuel generalizing front operand with
  | zero =>
      refine Uses.pure fun ordered => ?_
      rw [List.append_nil] at ordered ⊢
      exact covers ordered
  | succ fuel ih =>
      rw [quotes]
      refine Uses.accept? (fun quote => ?_) (Uses.pure fun ordered => ?_)
      · have longer : Ordered (front ++ [⟨.symbol .quote, quote⟩]) →
            (Node.expr (.unary (operand.span.merge quote) .transpose operand)).Covers
              (front ++ [⟨.symbol .quote, quote⟩]) := by
          intro ordered
          have inner := covers ordered.left
          refine covers_of_spell 0 (.of_covers inner (.token .nil)) ?_
          exact ordered.extent?_merge front [] inner.extent (extent?_singleton _)
        refine (ih longer).weaken fun taken result whole => ?_
        rw [List.append_assoc] at whole
        exact whole
      · rw [List.append_nil] at ordered ⊢
        exact covers ordered

theorem quoted_covers (covers : Covers nested .expr) (fuel : Nat) :
    Covers (quoted nested fuel) .expr := by
  unfold quoted
  refine Uses.bind (primary_covers covers fuel) fun front operand operandCovers => ?_
  exact quotes_completes operandCovers fuel

theorem signed_covers (covers : Covers nested .expr) (bound fuel : Nat) :
    Covers (signed nested bound fuel) .expr := by
  induction fuel with
  | zero => exact quoted_covers covers bound
  | succ fuel ih =>
      rw [signed]
      refine Uses.accept? (fun minus => ?_) (quoted_covers covers bound)
      refine Uses.bind ih fun taken operand operandCovers => ?_
      refine Uses.pure fun ordered => ?_
      rw [List.append_nil] at ordered ⊢
      have inner := operandCovers ordered.tail
      refine covers_of_spell 0 (.token (.of_covers_only inner)) ?_
      exact ordered.extent?_merge [_] [] (extent?_singleton _) inner.extent

theorem chainFrom_completes {operator? : Symbol → Option BinaryOp} {operand : Reader Expr}
    (symbols : ∀ symbol op, operator? symbol = some op → symbol = op.symbol)
    (operands : Covers operand .expr) {front : TokenStream} {left : Expr}
    (covers : Ordered front → (Node.expr left).Covers front) (fuel : Nat) :
    Completes (chainFrom operator? operand fuel left) .expr front := by
  induction fuel generalizing front left with
  | zero =>
      refine Uses.pure fun ordered => ?_
      rw [List.append_nil] at ordered ⊢
      exact covers ordered
  | succ fuel ih =>
      rw [chainFrom]
      refine Uses.acceptSymbol? (fun symbol op mark means => ?_) (Uses.pure fun ordered => ?_)
      · refine Uses.bind operands fun back right rightCovers => ?_
        have longer : Ordered (front ++ ⟨.symbol symbol, mark⟩ :: back) →
            (Node.expr (.binary (left.span.merge right.span) left op right)).Covers
              (front ++ ⟨.symbol symbol, mark⟩ :: back) := by
          intro ordered
          rw [symbols symbol op means] at ordered ⊢
          have joined := (covers ordered.left).join ordered (rightCovers ordered.right.tail)
          exact covers_of_spell 0 joined.1 joined.2
        refine (ih longer).weaken fun taken result whole => ?_
        rw [List.append_assoc, List.cons_append] at whole
        exact whole
      · rw [List.append_nil] at ordered ⊢
        exact covers ordered

theorem chain_covers {operator? : Symbol → Option BinaryOp} {operand : Reader Expr}
    (symbols : ∀ symbol op, operator? symbol = some op → symbol = op.symbol)
    (operands : Covers operand .expr) (fuel : Nat) :
    Covers (chain operator? operand fuel) .expr := by
  unfold chain
  refine Uses.bind operands fun front left leftCovers => ?_
  exact chainFrom_completes symbols operands leftCovers fuel

theorem arithmetic_covers (covers : Covers nested .expr) (fuel : Nat) :
    Covers (arithmetic nested fuel) .expr := by
  have symbols (level : Level) (symbol : Symbol) (op : BinaryOp)
      (means : level.operator? symbol = some op) : symbol = op.symbol :=
    Level.symbol_eq_of_operator? means
  refine chain_covers (symbols .sum) (chain_covers (symbols .dotSum) ?_ fuel) fuel
  refine chain_covers (symbols .product) (chain_covers (symbols .dotProduct) ?_ fuel) fuel
  exact signed_covers covers fuel fuel

theorem comparison_covers (covers : Covers nested .expr) (fuel : Nat) :
    Covers (comparison nested fuel) .expr := by
  unfold comparison
  refine Uses.bind (arithmetic_covers covers fuel) fun front left leftCovers => ?_
  refine Uses.acceptSymbol? (fun symbol op mark means => ?_) (Uses.pure fun ordered => ?_)
  · refine Uses.bind (arithmetic_covers covers fuel) fun back right rightCovers => ?_
    refine Uses.pure fun ordered => ?_
    rw [List.append_nil, Comparison.symbol_eq_of_comparison? means] at ordered ⊢
    have joined := (leftCovers ordered.left).join ordered (rightCovers ordered.right.tail)
    exact covers_of_spell 0 joined.1 joined.2
  · rw [List.append_nil] at ordered ⊢
    exact leftCovers ordered

/-- When the tokens are in order, the expression that is read covers those that are taken. -/
theorem reader_covers (fuel : Nat) : Covers (reader fuel) .expr := by
  induction fuel with
  | zero => exact Uses.unexpected _
  | succ fuel ih => exact comparison_covers ih fuel

end Expr

end MatrixScript
