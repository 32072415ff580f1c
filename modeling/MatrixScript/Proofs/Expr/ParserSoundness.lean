import MatrixScript.Expr.Parser
import MatrixScript.Proofs.Expr.Grammar

/-!
# Readers of expressions are sound

The reader of expressions yields nothing that the grammar does not derive from the
tokens it took.  Each reader has its statement, given one for nested expressions;
`Expr.reader_reads` ties the knot.
-/

namespace MatrixScript

open Reader

/-! ## Tables of symbols -/

/-- The meaning that the reader of a level gives to symbols. -/
def Level.operator? : Level → Symbol → Option BinaryOp
  | .sum => Expr.additive?
  | .dotSum => Expr.dotAdditive?
  | .product => Expr.multiplicative?
  | .dotProduct => Expr.dotMultiplicative?

theorem Level.operator?_eq_some_iff {level : Level} {symbol : Symbol} {op : BinaryOp} :
    level.operator? symbol = some op ↔ (symbol, op) ∈ level.operators := by
  cases level <;> cases symbol <;>
    simp [operator?, operators, Expr.additive?, Expr.dotAdditive?, Expr.multiplicative?,
      Expr.dotMultiplicative?, eq_comm]

theorem Comparison.comparison?_eq_some_iff {symbol : Symbol} {op : Comparison} :
    Expr.comparison? symbol = some op ↔ (symbol, op) ∈ Comparison.symbols := by
  cases symbol <;> simp [Expr.comparison?, Comparison.symbols, eq_comm]

theorem Builtin.builtin?_eq_some_iff {word : Keyword} {builtin : Builtin} :
    Expr.builtin? word = some builtin ↔ word = builtin.keyword := by
  cases word <;> cases builtin <;> simp [Expr.builtin?, Builtin.keyword]

/-! ## Soundness -/

namespace Expr

variable {nested : Reader Expr}

/-- The reader yields expressions that its tokens derive. -/
def Sound (reader : Reader Expr) (phrase : Expr → Phrase) : Prop :=
  Reads reader fun tokens expr => (phrase expr.bare).Derives tokens

theorem arguments_read (reads : Sound nested .whole) (fuel : Nat) (close : Symbol) :
    Reads (itemsUntil nested fuel close) fun tokens result =>
      ∃ parts : List (Expr × List Token),
        tokens = commaSeparated (parts.map Prod.snd) ++ [.symbol close] ∧
        bareAll result.1 = parts.map Prod.fst ∧
        ∀ part ∈ parts, (Phrase.whole part.1).Derives part.2 := by
  have listed := Reads.itemsUntil bare (fun tokens expr => (Phrase.whole expr).Derives tokens)
    reads fuel close
  refine listed.weaken ?_
  rintro _ ⟨exprs, span⟩ ⟨parts, _, rfl, inside⟩
  refine ⟨parts, ?_, ?_, inside.each⟩
  · rw [inside.tokens]
  · rw [bareAll_eq_map, inside.list]

theorem row_reads (reads : Sound nested .whole) (fuel : Nat) :
    Reads (row nested fuel) fun tokens row => (Phrase.row row.bare).Derives tokens := by
  unfold row
  refine Reads.expect fun start => ?_
  refine (arguments_read reads fuel .closeBracket).bind ?_
  rintro _ ⟨cells, close⟩ ⟨parts, rfl, cellsAre, each⟩
  refine Reads.pure ?_
  rw [Row.bare, cellsAre, List.append_nil]
  exact .row each

theorem callFrom_reads (reads : Sound nested .whole) (fuel : Nat) (builtin : Builtin)
    (start : Span) :
    Reads (callFrom nested fuel builtin start) fun tokens expr =>
      (Phrase.primary expr.bare).Derives (.keyword builtin.keyword :: tokens) := by
  unfold callFrom
  refine Reads.expect fun span => ?_
  refine (arguments_read reads fuel .closeParen).bind ?_
  rintro _ ⟨arguments, close⟩ ⟨parts, rfl, argumentsAre, each⟩
  refine Reads.pure ?_
  rw [bare, argumentsAre, List.append_nil]
  exact .call each

theorem parenthesizedFrom_reads (reads : Sound nested .whole) (start : Span) :
    Reads (parenthesizedFrom nested start) fun tokens expr =>
      (Phrase.primary expr.bare).Derives (.symbol .openParen :: tokens) := by
  unfold parenthesizedFrom
  refine Reads.bind reads fun tokens inner derived => ?_
  refine Reads.expect fun span => ?_
  refine Reads.pure ?_
  rw [bare_withSpan]
  exact .parenthesized derived

theorem arrayFrom_reads (reads : Sound nested .whole) (fuel : Nat) (start : Span) :
    Reads (arrayFrom nested fuel start) fun tokens expr =>
      (Phrase.primary expr.bare).Derives (.symbol .openBracket :: tokens) := by
  unfold arrayFrom
  refine Reads.peek? fun token => ?_
  split
  · have rows := Reads.items Row.bare (fun tokens row => (Phrase.row row).Derives tokens)
      (row_reads reads fuel) fuel
    refine rows.bind ?_
    rintro inside rows ⟨parts, nonempty, listed⟩
    refine Reads.expect fun close => ?_
    refine Reads.pure fun _ => ?_
    rw [bare, Row.bareAll_eq_map, listed.list, listed.tokens]
    exact .matrix nonempty listed.each
  · rename_i notBracket
    refine (arguments_read reads fuel .closeBracket).bind ?_
    rintro _ ⟨elements, close⟩ ⟨parts, rfl, elementsAre, each⟩
    refine Reads.pure fun seen => ?_
    rw [bare, elementsAre, List.append_nil]
    refine .vector each ?_
    intro begins
    apply notBracket
    apply seen
    rw [List.append_nil, List.head?_append, begins]
    rfl

theorem coordinates_read (reads : Sound nested .whole) (fuel : Nat) (sliced : Bool) :
    Reads (coordinates nested fuel sliced) fun tokens exprs =>
      (exprs = [] ∧ ∃ count, tokens = .symbol .colon :: trailingColons count) ∨
      (sliced = false ∧ ∃ (parts : List (Expr × List Token)) (count : Nat), parts ≠ [] ∧
        tokens = commaSeparated (parts.map Prod.snd) ++ trailingColons count ∧
        bareAll exprs = parts.map Prod.fst ∧
        ∀ part ∈ parts, (Phrase.whole part.1).Derives part.2) := by
  induction fuel generalizing sliced with
  | zero => exact Reads.unexpected _
  | succ fuel ih =>
      rw [coordinates]
      refine Reads.accept? (fun span => ?_) ?_
      · refine Reads.accept? (fun comma => ?_) ?_
        · refine (ih true).weaken ?_
          rintro tokens exprs (⟨rfl, count, rfl⟩ | ⟨impossible, _⟩)
          · exact .inl ⟨rfl, count + 1, by simp [trailingColons, List.replicate_succ]⟩
          · cases impossible
        · exact Reads.pure (.inl ⟨rfl, 0, rfl⟩)
      · cases sliced with
        | true => exact Reads.reject _
        | false =>
            rw [if_neg Bool.false_ne_true]
            refine Reads.peek? fun token => ?_
            split
            · exact Reads.unexpected _
            · refine Reads.bind reads fun front head headDerives => ?_
              refine Reads.accept? (fun comma => ?_) ?_
              · refine (ih false).bind ?_
                rintro _ tail (⟨rfl, count, rfl⟩ | ⟨_, parts, count, nonempty, rfl, tailIs, each⟩)
                · refine Reads.pure fun _ => .inr ⟨rfl, [(head.bare, front)], count + 1, ?_⟩
                  refine ⟨List.cons_ne_nil _ _, ?_, rfl, by simpa using headDerives⟩
                  simp [trailingColons, List.replicate_succ, commaSeparated]
                · refine Reads.pure fun _ => .inr ⟨rfl, (head.bare, front) :: parts, count, ?_⟩
                  refine ⟨List.cons_ne_nil _ _, ?_, ?_, ?_⟩
                  · cases parts with
                    | nil => exact absurd rfl nonempty
                    | cons part others => simp [commaSeparated]
                  · rw [bareAll, tailIs, List.map_cons]
                  · exact List.forall_mem_cons.mpr ⟨headDerives, each⟩
              · refine Reads.pure fun _ => .inr ⟨rfl, [(head.bare, front)], 0, ?_⟩
                refine ⟨List.cons_ne_nil _ _, ?_, rfl, by simpa using headDerives⟩
                simp [trailingColons, commaSeparated]

theorem referenceFrom_reads (reads : Sound nested .whole) (fuel : Nat) (name : Located String) :
    Reads (referenceFrom nested fuel name) fun tokens expr =>
      (Phrase.target expr.bare).Derives (.identifier name.item :: tokens) := by
  unfold referenceFrom
  refine Reads.expect fun start => ?_
  refine (coordinates_read reads fuel false).bind ?_
  rintro _ exprs (⟨rfl, _⟩ | ⟨_, parts, count, nonempty, rfl, exprsAre, each⟩)
  · exact Reads.expect fun close => Reads.rejectAt _ _
  · refine Reads.expect fun close => ?_
    cases exprs with
    | nil => exact Reads.rejectAt _ _
    | cons head tail =>
        refine Reads.pure ?_
        rw [bare, exprsAre]
        exact .reference nonempty each count

theorem variableOrReference_reads (reads : Sound nested .whole) (fuel : Nat) :
    Sound (variableOrReference nested fuel) .target := by
  unfold variableOrReference
  refine Reads.identifier fun name span => ?_
  refine Reads.peek? fun token => ?_
  split
  · exact (referenceFrom_reads reads fuel ⟨name, span⟩).weaken fun _ _ derived _ => derived
  · exact Reads.pure fun _ => .var name

theorem primary_reads (reads : Sound nested .whole) (fuel : Nat) :
    Sound (primary nested fuel) .primary := by
  intro tokens result rest ran
  unfold primary at ran
  split at ran
  · exact absurd ran unexpected_ne_ok
  · rename_i token span others
    split at ran
    · cases ran
      exact ⟨[⟨_, span⟩], rfl, .int _⟩
    · cases ran
      exact ⟨[⟨_, span⟩], rfl, .float _⟩
    · cases ran
      exact ⟨[⟨_, span⟩], rfl, .string _⟩
    · rcases variableOrReference_reads reads fuel _ _ _ ran with ⟨taken, split, derived⟩
      exact ⟨taken, split, derived.target⟩
    · rcases arrayFrom_reads reads fuel span _ _ _ ran with ⟨taken, rfl, derived⟩
      exact ⟨⟨_, span⟩ :: taken, rfl, derived⟩
    · rcases parenthesizedFrom_reads reads span _ _ _ ran with ⟨taken, rfl, derived⟩
      exact ⟨⟨_, span⟩ :: taken, rfl, derived⟩
    · exact absurd ran unexpected_ne_ok
    · split at ran
      · rename_i builtin means
        rw [Builtin.builtin?_eq_some_iff] at means
        subst means
        rcases callFrom_reads reads fuel builtin span _ _ _ ran with ⟨taken, rfl, derived⟩
        exact ⟨⟨_, span⟩ :: taken, rfl, derived⟩
      · exact absurd ran unexpected_ne_ok

theorem quotes_read {front : List Token} {operand : Expr}
    (derived : (Phrase.quoted operand.bare).Derives front) (fuel : Nat) :
    Reads (quotes fuel operand) fun tokens expr =>
      (Phrase.quoted expr.bare).Derives (front ++ tokens) := by
  induction fuel generalizing front operand with
  | zero =>
      refine Reads.pure ?_
      rw [List.append_nil]
      exact derived
  | succ fuel ih =>
      rw [quotes]
      refine Reads.accept? (fun span => ?_) (Reads.pure ?_)
      · have longer : (Phrase.quoted
            (Expr.unary (operand.span.merge span) .transpose operand).bare).Derives
            (front ++ [.symbol .quote]) :=
          derived.transpose
        refine (ih longer).weaken ?_
        intro tokens expr whole
        rw [List.append_assoc] at whole
        exact whole
      · rw [List.append_nil]
        exact derived

theorem quoted_reads (reads : Sound nested .whole) (fuel : Nat) :
    Sound (quoted nested fuel) .quoted := by
  unfold quoted
  refine Reads.bind (primary_reads reads fuel) fun front operand derived => ?_
  exact quotes_read derived.primary fuel

theorem signed_reads (reads : Sound nested .whole) (bound fuel : Nat) :
    Sound (signed nested bound fuel) .signed := by
  induction fuel with
  | zero => exact (quoted_reads reads bound).weaken fun _ _ derived => derived.quoted
  | succ fuel ih =>
      rw [signed]
      refine Reads.accept? (fun minus => ?_) ?_
      · refine Reads.bind ih fun tokens operand derived => Reads.pure ?_
        rw [List.append_nil]
        exact derived.negate
      · exact (quoted_reads reads bound).weaken fun _ _ derived => derived.quoted

theorem chainFrom_reads {level : Level} {operand : Reader Expr}
    (operands : Sound operand level.operand) {front : List Token} {left : Expr}
    (derived : (Phrase.chain level left.bare).Derives front) (fuel : Nat) :
    Reads (chainFrom level.operator? operand fuel left) fun tokens expr =>
      (Phrase.chain level expr.bare).Derives (front ++ tokens) := by
  induction fuel generalizing front left with
  | zero =>
      refine Reads.pure ?_
      rw [List.append_nil]
      exact derived
  | succ fuel ih =>
      rw [chainFrom]
      refine Reads.acceptSymbol? (fun symbol op means => ?_) (Reads.pure ?_)
      · refine Reads.bind operands fun back right rightDerived => ?_
        rw [Level.operator?_eq_some_iff] at means
        have longer : (Phrase.chain level
            (Expr.binary (left.span.merge right.span) left op right).bare).Derives
            (front ++ .symbol symbol :: back) :=
          derived.binary means rightDerived
        refine (ih longer).weaken ?_
        intro tokens expr whole
        rw [List.append_assoc, List.cons_append] at whole
        exact whole
      · rw [List.append_nil]
        exact derived

theorem chain_reads {level : Level} {operand : Reader Expr}
    (operands : Sound operand level.operand) (fuel : Nat) :
    Sound (chain level.operator? operand fuel) (.chain level) := by
  unfold chain
  refine Reads.bind operands fun front left derived => ?_
  exact chainFrom_reads operands derived.operand fuel

theorem arithmetic_reads (reads : Sound nested .whole) (fuel : Nat) :
    Sound (arithmetic nested fuel) (.chain .sum) := by
  have dotProducts : Sound _ (.chain .dotProduct) :=
    chain_reads (signed_reads reads fuel fuel) fuel
  have products : Sound _ (.chain .product) := chain_reads dotProducts fuel
  have dotSums : Sound _ (.chain .dotSum) := chain_reads products fuel
  have sums : Sound _ (.chain .sum) := chain_reads dotSums fuel
  exact sums

theorem comparison_reads (reads : Sound nested .whole) (fuel : Nat) :
    Sound (comparison nested fuel) .whole := by
  unfold comparison
  refine Reads.bind (arithmetic_reads reads fuel) fun front left leftDerived => ?_
  refine Reads.acceptSymbol? (fun symbol op means => ?_) (Reads.pure ?_)
  · refine Reads.bind (arithmetic_reads reads fuel) fun back right rightDerived => ?_
    refine Reads.pure ?_
    rw [Comparison.comparison?_eq_some_iff] at means
    rw [List.append_nil]
    exact leftDerived.compare means rightDerived
  · rw [List.append_nil]
    exact leftDerived.sum

/-- What the reader of expressions yields, its tokens spell. -/
theorem reader_reads (fuel : Nat) : Sound (reader fuel) .whole := by
  induction fuel with
  | zero => exact Reads.unexpected _
  | succ fuel ih => exact comparison_reads ih fuel

end Expr

end MatrixScript
