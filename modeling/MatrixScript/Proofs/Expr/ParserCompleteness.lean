import MatrixScript.Proofs.Expr.ParserSoundness

/-!
# Readers of expressions are complete

The reader of expressions takes whatever the grammar derives, if the stream goes on with
a token at which the expression has to end.  Ranks say where that is: a phrase ends
before every token of a greater rank, and an operator has the rank of its level.

Chains and quotes are derived from the left, but their readers go to the right in a
loop.  `Resumes` joins the two: with the tokens of a derivation taken, the reader has
come to the loop with the tree derived so far.
-/

namespace MatrixScript

open Reader TokenStream

/-! ## Ranks -/

/-- How far out an expression on the left goes on over the symbol. -/
def Symbol.rank : Symbol → Nat
  | .openBracket => 0
  | .quote => 1
  | .dotStar | .dotSlash => 2
  | .star | .slash => 3
  | .dotPlus | .dotMinus => 4
  | .plus | .minus => 5
  | .less | .greater | .lessEqual | .greaterEqual | .equalEqual | .notEqual => 6
  | _ => 7

/-- No expression goes on over a token that is no symbol. -/
def Token.rank : Token → Nat
  | .symbol mark => mark.rank
  | _ => 7

/-- The rank of the operators of a level. -/
def Level.rank : Level → Nat
  | .sum => 5
  | .dotSum => 4
  | .product => 3
  | .dotProduct => 2

theorem Level.rank_of_mem_operators {level : Level} {symbol : Symbol} {op : BinaryOp}
    (means : (symbol, op) ∈ level.operators) : symbol.rank = level.rank := by
  cases level <;>
  · simp only [operators, List.mem_cons, Prod.mk.injEq, List.not_mem_nil, or_false] at means
    rcases means with ⟨rfl, _⟩ | ⟨rfl, _⟩ <;> rfl

theorem Level.operator?_eq_none {level : Level} {symbol : Symbol}
    (looser : level.rank < symbol.rank) : level.operator? symbol = none := by
  cases found : level.operator? symbol with
  | none => rfl
  | some op =>
      have same := rank_of_mem_operators (operator?_eq_some_iff.mp found)
      exact absurd looser (by omega)

theorem Comparison.rank_of_mem_symbols {symbol : Symbol} {op : Comparison}
    (means : (symbol, op) ∈ Comparison.symbols) : symbol.rank = 6 := by
  simp only [symbols, List.mem_cons, Prod.mk.injEq, List.not_mem_nil, or_false] at means
  rcases means with ⟨rfl, _⟩ | ⟨rfl, _⟩ | ⟨rfl, _⟩ | ⟨rfl, _⟩ | ⟨rfl, _⟩ | ⟨rfl, _⟩ <;> rfl

theorem Comparison.comparison?_eq_none {symbol : Symbol} (looser : 6 < symbol.rank) :
    Expr.comparison? symbol = none := by
  cases found : Expr.comparison? symbol with
  | none => rfl
  | some op =>
      have same := rank_of_mem_symbols (comparison?_eq_some_iff.mp found)
      exact absurd looser (by omega)

/-- A phrase of the rank ends before the token. -/
def EndsBefore (rank : Nat) (next : Option Token) : Prop :=
  ∀ token ∈ next, rank < token.rank

theorem EndsBefore.of_some {rank : Nat} {token : Token} (looser : rank < token.rank) :
    EndsBefore rank (some token) := by
  rintro _ ⟨⟩
  exact looser

theorem EndsBefore.mono {rank lower : Nat} {next : Option Token} (ends : EndsBefore rank next)
    (below : lower ≤ rank) : EndsBefore lower next :=
  fun token isNext => Nat.lt_of_le_of_lt below (ends token isNext)

theorem EndsBefore.ne {rank : Nat} {next : Option Token} {token : Token}
    (ends : EndsBefore rank next) (tighter : token.rank ≤ rank) : next ≠ some token := by
  rintro rfl
  exact absurd (ends token rfl) (Nat.not_lt.mpr tighter)

/-! ## First tokens -/

/-- An expression without a minus sign in front can begin with the token. -/
def Token.begins : Token → Bool
  | .int _ | .float _ | .string _ | .identifier _ => true
  | .symbol .openParen | .symbol .openBracket => true
  | .keyword .zeros | .keyword .ones | .keyword .eye => true
  | _ => false

/-- The phrase can begin with the token. -/
def Phrase.Opens : Phrase → Token → Prop
  | .whole _, token | .chain _ _, token | .signed _, token =>
      token.begins = true ∨ token = .symbol .minus
  | .quoted _, token | .primary _, token | .target _, token => token.begins = true
  | .row _, token => token = .symbol .openBracket

theorem Level.opens_of_operand {level : Level} {expr : Expr} {token : Token}
    (opens : (level.operand expr).Opens token) : (Phrase.chain level expr).Opens token := by
  cases level <;> exact opens

/-- What spells a phrase has a first token, and the phrase can begin with it. -/
theorem Phrase.Derives.opens {phrase : Phrase} {tokens : List Token}
    (derives : phrase.Derives tokens) : ∃ head ∈ tokens.head?, phrase.Opens head := by
  induction derives with
  | sum _ ih => exact ih
  | compare _ _ _ ih _ =>
      rcases ih with ⟨head, begins, opens⟩
      exact ⟨head, by rw [List.head?_append, begins]; rfl, opens⟩
  | operand _ ih =>
      rcases ih with ⟨head, begins, opens⟩
      exact ⟨head, begins, Level.opens_of_operand opens⟩
  | binary _ _ _ ih _ =>
      rcases ih with ⟨head, begins, opens⟩
      exact ⟨head, by rw [List.head?_append, begins]; rfl, opens⟩
  | quoted _ ih =>
      rcases ih with ⟨head, begins, opens⟩
      exact ⟨head, begins, .inl opens⟩
  | negate _ _ => exact ⟨_, rfl, .inr rfl⟩
  | primary _ ih => exact ih
  | transpose _ ih =>
      rcases ih with ⟨head, begins, opens⟩
      exact ⟨head, by rw [List.head?_append, begins]; rfl, opens⟩
  | int => exact ⟨_, rfl, rfl⟩
  | float => exact ⟨_, rfl, rfl⟩
  | string => exact ⟨_, rfl, rfl⟩
  | target _ ih => exact ih
  | call =>
      rename_i builtin _ _ _
      refine ⟨_, rfl, ?_⟩
      cases builtin <;> rfl
  | parenthesized => exact ⟨_, rfl, rfl⟩
  | vector => exact ⟨_, rfl, rfl⟩
  | matrix => exact ⟨_, rfl, rfl⟩
  | row => exact ⟨_, rfl, rfl⟩
  | var => exact ⟨_, rfl, rfl⟩
  | reference => exact ⟨_, rfl, rfl⟩

/-! ## Completeness of a phrase -/

/--
With the tokens taken, the reader has come to a loop with the tree they spell, and
of the fuel of the loop at most one unit for each token is gone.
-/
def Resumes (reader : Reader Expr) (tokens : List Token) (admits : Option Token → Prop)
    (loop : Nat → Expr → Reader Expr) (bound : Nat) (expr : Expr) : Prop :=
  ∀ taken rest, spelling taken = tokens → admits (next? rest) →
    ∃ tree spare, tree.bare = expr ∧ bound ≤ spare + tokens.length ∧
      reader (taken ++ rest) = loop spare tree rest

/-- A loop that has nothing more to take leaves a reader that takes the tokens. -/
theorem Resumes.takes {reader : Reader Expr} {tokens : List Token}
    {admits ends : Option Token → Prop} {loop : Nat → Expr → Reader Expr} {bound : Nat}
    {expr : Expr} (resumes : Resumes reader tokens admits loop bound expr)
    (fewer : ∀ token, ends token → admits token)
    (stops : ∀ spare tree, Takes (loop spare tree) [] ends (· = tree)) :
    Takes reader tokens ends (·.bare = expr) := by
  intro taken rest spells ended
  rcases resumes taken rest spells (fewer _ ended) with ⟨tree, spare, isTree, _, ran⟩
  rcases stops spare tree [] rest rfl ended with ⟨_, stopped, rfl⟩
  exact ⟨_, ran.trans stopped, isTree⟩

/-- The reader of the operands of a level. -/
def Level.operandReader (nested : Reader Expr) (fuel : Nat) : Level → Reader Expr
  | .sum =>
      Expr.chain Expr.dotAdditive?
        (Expr.chain Expr.multiplicative?
          (Expr.chain Expr.dotMultiplicative? (Expr.signed nested fuel fuel) fuel) fuel) fuel
  | .dotSum =>
      Expr.chain Expr.multiplicative?
        (Expr.chain Expr.dotMultiplicative? (Expr.signed nested fuel fuel) fuel) fuel
  | .product => Expr.chain Expr.dotMultiplicative? (Expr.signed nested fuel fuel) fuel
  | .dotProduct => Expr.signed nested fuel fuel

/-- The reader of the chains of a level. -/
def Level.reader (nested : Reader Expr) (fuel : Nat) (level : Level) : Reader Expr :=
  Expr.chain level.operator? (level.operandReader nested fuel) fuel

/-- The reader of the phrase takes the tokens, if the fuel is no less than their number. -/
def Phrase.Complete (tokens : List Token) : Phrase → Prop
  | .whole expr => ∀ depth, tokens.length < depth →
      Takes (Expr.reader depth) tokens (EndsBefore 6) (·.bare = expr)
  | .chain level expr => ∀ depth bound, tokens.length ≤ depth → tokens.length ≤ bound →
      Resumes (level.reader (Expr.reader depth) bound) tokens (EndsBefore (level.rank - 1))
        (Expr.chainFrom level.operator? (level.operandReader (Expr.reader depth) bound)) bound
        expr
  | .signed expr => ∀ depth bound fuel, tokens.length ≤ depth → tokens.length ≤ bound →
      tokens.length ≤ fuel →
      Takes (Expr.signed (Expr.reader depth) bound fuel) tokens (EndsBefore 1) (·.bare = expr)
  | .quoted expr => ∀ depth bound, tokens.length ≤ depth → tokens.length ≤ bound →
      Resumes (Expr.quoted (Expr.reader depth) bound) tokens (EndsBefore 0) Expr.quotes bound
        expr
  | .primary expr => ∀ depth bound, tokens.length ≤ depth → tokens.length ≤ bound →
      Takes (Expr.primary (Expr.reader depth) bound) tokens (EndsBefore 0) (·.bare = expr)
  | .target expr => ∀ depth bound, tokens.length ≤ depth → tokens.length ≤ bound →
      Takes (Expr.variableOrReference (Expr.reader depth) bound) tokens (EndsBefore 0)
        (·.bare = expr)
  | .row cells => ∀ depth bound, tokens.length ≤ depth → tokens.length ≤ bound →
      Takes (Expr.row (Expr.reader depth) bound) tokens (fun _ => True) (·.bare = cells)

/-! ## Chains and quotes -/

theorem Level.stops (level : Level) (operand : Reader Expr) (spare : Nat) (tree : Expr) :
    Takes (Expr.chainFrom level.operator? operand spare tree) [] (EndsBefore level.rank)
      (· = tree) := by
  cases spare with
  | zero => exact Takes.pure rfl
  | succ spare =>
      rw [Expr.chainFrom]
      refine Takes.passSymbol ?_ (Takes.pure rfl)
      intro token ends symbol isNext
      exact Level.operator?_eq_none (ends (.symbol symbol) isNext)

theorem Level.reader_takes {level : Level} {expr : Expr} {tokens : List Token}
    (complete : (Phrase.chain level expr).Complete tokens) {depth bound : Nat}
    (deep : tokens.length ≤ depth) (enough : tokens.length ≤ bound) :
    Takes (level.reader (Expr.reader depth) bound) tokens (EndsBefore level.rank)
      (·.bare = expr) := by
  refine (complete depth bound deep enough).takes ?_ (level.stops _)
  intro token ends
  exact ends.mono (Nat.sub_le _ _)

theorem Level.operand_takes {level : Level} {expr : Expr} {tokens : List Token}
    (complete : (level.operand expr).Complete tokens) {depth bound : Nat}
    (deep : tokens.length ≤ depth) (enough : tokens.length ≤ bound) :
    Takes (level.operandReader (Expr.reader depth) bound) tokens
      (EndsBefore (level.rank - 1)) (·.bare = expr) := by
  cases level with
  | sum =>
      have operand : (Phrase.chain .dotSum expr).Complete tokens := complete
      exact Level.reader_takes operand deep enough
  | dotSum =>
      have operand : (Phrase.chain .product expr).Complete tokens := complete
      exact Level.reader_takes operand deep enough
  | product =>
      have operand : (Phrase.chain .dotProduct expr).Complete tokens := complete
      exact Level.reader_takes operand deep enough
  | dotProduct => exact complete depth bound bound deep enough enough

theorem Phrase.Complete.operand {level : Level} {expr : Expr} {tokens : List Token}
    (complete : (level.operand expr).Complete tokens) :
    (Phrase.chain level expr).Complete tokens := by
  intro depth bound deep enough taken rest spells ends
  rcases Level.operand_takes complete deep enough taken rest spells ends with
    ⟨tree, ran, isTree⟩
  exact ⟨tree, bound, isTree, Nat.le_add_right _ _, bind_of_ok ran⟩

theorem Phrase.Complete.binary {level : Level} {left right : Expr} {front back : List Token}
    {symbol : Symbol} {op : BinaryOp} (first : (Phrase.chain level left).Complete front)
    (means : (symbol, op) ∈ level.operators) (second : (level.operand right).Complete back) :
    (Phrase.chain level (.binary default left op right)).Complete
      (front ++ .symbol symbol :: back) := by
  intro depth bound deep enough taken rest spells ends
  rw [List.length_append, List.length_cons] at deep enough
  rcases List.map_eq_append_iff.mp spells with ⟨frontTaken, others, rfl, frontSpells, othersSpell⟩
  rcases List.map_eq_cons_iff.mp othersSpell with
    ⟨⟨item, span⟩, backTaken, rfl, same, backSpells⟩
  cases same
  have goesOn : EndsBefore (level.rank - 1)
      (next? (⟨.symbol symbol, span⟩ :: (backTaken ++ rest))) := by
    apply EndsBefore.of_some
    have rank := Level.rank_of_mem_operators means
    have positive : 0 < level.rank := by cases level <;> decide
    show level.rank - 1 < symbol.rank
    omega
  rcases first depth bound (by omega) (by omega) frontTaken _ frontSpells goesOn with
    ⟨leftTree, spare, rfl, spareEnough, ranLeft⟩
  have backDeep : back.length ≤ depth := by omega
  have backEnough : back.length ≤ bound := by omega
  rcases Level.operand_takes second backDeep backEnough backTaken rest backSpells ends with
    ⟨rightTree, ranRight, rfl⟩
  cases spare with
  | zero => omega
  | succ spare =>
      refine ⟨.binary (leftTree.span.merge rightTree.span) leftTree op rightTree, spare, rfl,
        ?_, ?_⟩
      · rw [List.length_append, List.length_cons]
        omega
      · have accepted : acceptSymbol? level.operator?
            (⟨.symbol symbol, span⟩ :: (backTaken ++ rest)) = .ok (some op, backTaken ++ rest) := by
          simp only [acceptSymbol?, Level.operator?_eq_some_iff.mpr means]
        rw [List.append_assoc, List.cons_append, ranLeft, Expr.chainFrom, bind_of_ok accepted]
        exact bind_of_ok ranRight

theorem quotes_stop (spare : Nat) (tree : Expr) :
    Takes (Expr.quotes spare tree) [] (EndsBefore 1) (· = tree) := by
  cases spare with
  | zero => exact Takes.pure rfl
  | succ spare =>
      rw [Expr.quotes]
      refine Takes.pass ?_ (Takes.pure rfl)
      intro token ends
      exact ends.ne (Nat.le_refl 1)

theorem quoted_takes {expr : Expr} {tokens : List Token}
    (complete : (Phrase.quoted expr).Complete tokens) {depth bound : Nat}
    (deep : tokens.length ≤ depth) (enough : tokens.length ≤ bound) :
    Takes (Expr.quoted (Expr.reader depth) bound) tokens (EndsBefore 1) (·.bare = expr) := by
  refine (complete depth bound deep enough).takes ?_ quotes_stop
  intro token ends
  exact ends.mono (Nat.zero_le 1)

theorem Phrase.Complete.primary {expr : Expr} {tokens : List Token}
    (complete : (Phrase.primary expr).Complete tokens) :
    (Phrase.quoted expr).Complete tokens := by
  intro depth bound deep enough taken rest spells ends
  rcases complete depth bound deep enough taken rest spells ends with ⟨tree, ran, isTree⟩
  exact ⟨tree, bound, isTree, Nat.le_add_right _ _, bind_of_ok ran⟩

theorem Phrase.Complete.transpose {expr : Expr} {tokens : List Token}
    (complete : (Phrase.quoted expr).Complete tokens) :
    (Phrase.quoted (.unary default .transpose expr)).Complete (tokens ++ [.symbol .quote]) := by
  intro depth bound deep enough taken rest spells ends
  rw [List.length_append, List.length_singleton] at deep enough
  rcases List.map_eq_append_iff.mp spells with ⟨front, others, rfl, frontSpells, othersSpell⟩
  rcases List.map_eq_cons_iff.mp othersSpell with ⟨⟨item, span⟩, nothing, rfl, same, empty⟩
  cases same
  rw [List.map_eq_nil_iff] at empty
  subst empty
  have goesOn : EndsBefore 0 (next? (⟨.symbol .quote, span⟩ :: rest)) :=
    EndsBefore.of_some Nat.zero_lt_one
  rcases complete depth bound (by omega) (by omega) front _ frontSpells goesOn with
    ⟨tree, spare, rfl, spareEnough, ran⟩
  cases spare with
  | zero => omega
  | succ spare =>
      refine ⟨.unary (tree.span.merge span) .transpose tree, spare, rfl, ?_, ?_⟩
      · rw [List.length_append, List.length_singleton]
        omega
      · have accepted : accept? (.symbol .quote) (⟨.symbol .quote, span⟩ :: rest) =
            .ok (some span, rest) := by
          rw [accept?, if_pos rfl]
        rw [List.append_assoc, List.singleton_append, ran, Expr.quotes, bind_of_ok accepted]

theorem Phrase.Complete.negate {expr : Expr} {tokens : List Token}
    (complete : (Phrase.signed expr).Complete tokens) :
    (Phrase.signed (.unary default .negate expr)).Complete (.symbol .minus :: tokens) := by
  intro depth bound fuel deep enough fuelEnough
  rw [List.length_cons] at deep enough fuelEnough
  cases fuel with
  | zero => omega
  | succ fuel =>
      have operand := complete depth bound fuel (by omega) (by omega) (by omega)
      rw [Expr.signed]
      refine Takes.accept? fun minus => ?_
      refine operand.last (fun token ends => ends) ?_
      rintro tree rfl
      exact Takes.pure rfl

theorem Phrase.Complete.quoted {expr : Expr} {tokens : List Token}
    (complete : (Phrase.quoted expr).Complete tokens)
    (opens : ∃ head ∈ tokens.head?, (Phrase.quoted expr).Opens head) :
    (Phrase.signed expr).Complete tokens := by
  intro depth bound fuel deep enough _
  have takes := quoted_takes complete deep enough
  cases fuel with
  | zero => exact takes
  | succ fuel =>
      rw [Expr.signed]
      refine Takes.pass ?_ takes
      intro token _
      rcases opens with ⟨head, begins, isOpening⟩
      rw [Option.mem_def.mp begins]
      rintro ⟨⟩
      cases isOpening

/-! ## Whole expressions -/

theorem Phrase.Complete.sum {expr : Expr} {tokens : List Token}
    (complete : (Phrase.chain .sum expr).Complete tokens) :
    (Phrase.whole expr).Complete tokens := by
  intro depth deep
  cases depth with
  | zero => omega
  | succ depth =>
      have fits : tokens.length ≤ depth := by omega
      have arithmetic := Level.reader_takes complete fits fits
      rw [Expr.reader, Expr.comparison]
      refine arithmetic.last ?_ ?_
      · intro token ends
        exact ends.mono (by decide)
      · rintro tree rfl
        refine Takes.passSymbol ?_ (Takes.pure rfl)
        intro token ends symbol isNext
        exact Comparison.comparison?_eq_none (ends (.symbol symbol) isNext)

theorem Phrase.Complete.compare {left right : Expr} {front back : List Token} {symbol : Symbol}
    {op : Comparison} (first : (Phrase.chain .sum left).Complete front)
    (means : (symbol, op) ∈ Comparison.symbols)
    (second : (Phrase.chain .sum right).Complete back) :
    (Phrase.whole (.compare default left op right)).Complete
      (front ++ .symbol symbol :: back) := by
  intro depth deep
  rw [List.length_append, List.length_cons] at deep
  cases depth with
  | zero => omega
  | succ depth =>
      have frontFits : front.length ≤ depth := by omega
      have backFits : back.length ≤ depth := by omega
      have leftTakes := Level.reader_takes first frontFits frontFits
      have rightTakes := Level.reader_takes second backFits backFits
      rw [Expr.reader, Expr.comparison]
      refine leftTakes.bind ?_ ?_
      · intro token _
        apply EndsBefore.of_some
        show 5 < symbol.rank
        rw [Comparison.rank_of_mem_symbols means]
        decide
      · rintro leftTree rfl
        refine Takes.acceptSymbol? (Comparison.comparison?_eq_some_iff.mpr means) ?_
        refine rightTakes.last (fun token ends => ends.mono (by decide)) ?_
        rintro rightTree rfl
        exact Takes.pure rfl

/-! ## Lists in brackets -/

/-- The parts spell expressions that their reader takes. -/
structure Ready (parts : List (Expr × List Token)) : Prop where
  derives : ∀ part ∈ parts, (Phrase.whole part.1).Derives part.2
  complete : ∀ part ∈ parts, (Phrase.whole part.1).Complete part.2

/-- The symbol neither begins an expression nor continues one. -/
def Symbol.Delimits (symbol : Symbol) : Prop :=
  6 < symbol.rank ∧ (Token.symbol symbol).begins = false

theorem Phrase.Derives.head_ne {expr : Expr} {tokens : List Token} {symbol : Symbol}
    (derives : (Phrase.whole expr).Derives tokens) (delimits : symbol.Delimits) :
    ∃ head ∈ tokens.head?, head ≠ .symbol symbol := by
  rcases derives.opens with ⟨head, begins, opens⟩
  refine ⟨head, begins, ?_⟩
  rintro rfl
  rcases opens with opening | minus
  · rw [delimits.2] at opening
    cases opening
  · cases minus
    exact absurd delimits.1 (by decide)

theorem Ready.takes {parts : List (Expr × List Token)} (ready : Ready parts) {depth : Nat}
    (deep : (commaSeparated (parts.map Prod.snd)).length < depth) :
    ∀ part ∈ parts, Takes (Expr.reader depth) part.2 (EndsBefore 6) (·.bare = part.1) := by
  intro part member
  have short : part.2.length ≤ (commaSeparated (parts.map Prod.snd)).length :=
    length_le_commaSeparated (List.mem_map_of_mem member)
  exact ready.complete part member depth (Nat.lt_of_le_of_lt short deep)

theorem Ready.tail {part : Expr × List Token} {parts : List (Expr × List Token)}
    (ready : Ready (part :: parts)) : Ready parts where
  derives other member := ready.derives other (List.mem_cons_of_mem _ member)
  complete other member := ready.complete other (List.mem_cons_of_mem _ member)

theorem comma_delimits : Symbol.comma.Delimits := ⟨by decide, rfl⟩

theorem arguments_take {parts : List (Expr × List Token)} (ready : Ready parts) (close : Symbol)
    (closes : close.Delimits) (notComma : close ≠ .comma) (depth bound : Nat)
    (deep : (commaSeparated (parts.map Prod.snd)).length < depth)
    (enough : (commaSeparated (parts.map Prod.snd)).length ≤ bound) :
    Takes (itemsUntil (Expr.reader depth) bound close)
      (commaSeparated (parts.map Prod.snd) ++ [.symbol close]) (fun _ => True)
      fun result => Expr.bareAll result.1 = parts.map Prod.fst := by
  have count := count_le_commaSeparated (parts.map Prod.snd)
  rw [List.length_map] at count
  have takes := Takes.itemsUntil (EndsBefore.of_some comma_delimits.1)
    (EndsBefore.of_some closes.1) notComma
    (fun part member => (ready.derives part member).head_ne closes) (ready.takes deep)
    (Nat.le_trans count (Nat.add_le_add_right enough 1))
  refine takes.weaken (fun _ goesOn => goesOn) ?_
  intro result resultIs
  rw [Expr.bareAll_eq_map]
  exact resultIs

theorem Ready.row {parts : List (Expr × List Token)} (ready : Ready parts) :
    (Phrase.row (.mk default (parts.map Prod.fst))).Complete
      (.symbol .openBracket ::
        (commaSeparated (parts.map Prod.snd) ++ [.symbol .closeBracket])) := by
  intro depth bound deep enough
  simp only [List.length_cons, List.length_append, List.length_nil] at deep enough
  have cells := arguments_take ready .closeBracket ⟨by decide, rfl⟩ (by decide) depth bound
    (by omega) (by omega)
  rw [Expr.row]
  refine Takes.expect fun start => ?_
  refine cells.last (fun _ _ => trivial) ?_
  rintro ⟨exprs, close⟩ cellsAre
  refine Takes.pure ?_
  rw [Row.bare, cellsAre]

/-! ## Primary expressions -/

theorem Ready.call {parts : List (Expr × List Token)} (ready : Ready parts) {builtin : Builtin} :
    (Phrase.primary (.call default builtin (parts.map Prod.fst))).Complete
      (.keyword builtin.keyword :: .symbol .openParen ::
        (commaSeparated (parts.map Prod.snd) ++ [.symbol .closeParen])) := by
  intro depth bound deep enough
  simp only [List.length_cons, List.length_append, List.length_nil] at deep enough
  have arguments := arguments_take ready .closeParen ⟨by decide, rfl⟩ (by decide) depth bound
    (by omega) (by omega)
  have means : Expr.builtin? builtin.keyword = some builtin :=
    Builtin.builtin?_eq_some_iff.mpr rfl
  refine Takes.dispatch (Expr.callFrom (Expr.reader depth) bound builtin) ?_ fun start => ?_
  · intro span rest
    simp only [Expr.primary, means]
  rw [Expr.callFrom]
  refine Takes.expect fun span => ?_
  refine arguments.last (fun _ _ => trivial) ?_
  rintro ⟨exprs, close⟩ argumentsAre
  refine Takes.pure ?_
  rw [Expr.bare, argumentsAre]

theorem Phrase.Complete.parenthesized {expr : Expr} {tokens : List Token}
    (complete : (Phrase.whole expr).Complete tokens) :
    (Phrase.primary expr).Complete
      (.symbol .openParen :: (tokens ++ [.symbol .closeParen])) := by
  intro depth bound deep enough
  simp only [List.length_cons, List.length_append, List.length_nil] at deep enough
  have inner := complete depth (by omega)
  refine Takes.dispatch (Expr.parenthesizedFrom _) (fun _ _ => rfl) fun start => ?_
  rw [Expr.parenthesizedFrom]
  refine inner.bind ?_ ?_
  · intro token _
    exact EndsBefore.of_some (by decide)
  · rintro tree rfl
    exact Takes.expect fun close => Takes.pure (Expr.bare_withSpan _ tree)

theorem Ready.vector {parts : List (Expr × List Token)} (ready : Ready parts)
    (oneBracket : (commaSeparated (parts.map Prod.snd)).head? ≠ some (.symbol .openBracket)) :
    (Phrase.primary (.vector default (parts.map Prod.fst))).Complete
      (.symbol .openBracket ::
        (commaSeparated (parts.map Prod.snd) ++ [.symbol .closeBracket])) := by
  intro depth bound deep enough
  simp only [List.length_cons, List.length_append, List.length_nil] at deep enough
  have elements := arguments_take ready .closeBracket ⟨by decide, rfl⟩ (by decide) depth bound
    (by omega) (by omega)
  refine Takes.dispatch (Expr.arrayFrom _ _) (fun _ _ => rfl) fun start => ?_
  rw [Expr.arrayFrom]
  refine Takes.peek? fun token _ => ?_
  split
  · rename_i seen
    rw [List.head?_append] at seen
    cases begins : (commaSeparated (parts.map Prod.snd)).head? with
    | none =>
        rw [begins] at seen
        cases seen
    | some head =>
        rw [begins] at seen
        cases seen
        exact absurd begins oneBracket
  · refine elements.last (fun _ _ => trivial) ?_
    rintro ⟨exprs, close⟩ elementsAre
    refine Takes.pure ?_
    rw [Expr.bare, elementsAre]

theorem Phrase.Complete.matrix {parts : List (Row × List Token)} (nonempty : parts ≠ [])
    (derives : ∀ part ∈ parts, (Phrase.row part.1).Derives part.2)
    (complete : ∀ part ∈ parts, (Phrase.row part.1).Complete part.2) :
    (Phrase.primary (.matrix default (parts.map Prod.fst))).Complete
      (.symbol .openBracket ::
        (commaSeparated (parts.map Prod.snd) ++ [.symbol .closeBracket])) := by
  intro depth bound deep enough
  simp only [List.length_cons, List.length_append, List.length_nil] at deep enough
  have each : ∀ part ∈ parts,
      Takes (Expr.row (Expr.reader depth) bound) part.2 (fun _ => True) (·.bare = part.1) := by
    intro part member
    have short : part.2.length ≤ (commaSeparated (parts.map Prod.snd)).length :=
      length_le_commaSeparated (List.mem_map_of_mem member)
    exact complete part member depth bound (by omega) (by omega)
  have count := count_le_commaSeparated (parts.map Prod.snd)
  rw [List.length_map] at count
  have ends : ∀ token : Option Token, token = some (.symbol .closeBracket) →
      True ∧ token ≠ some (.symbol .comma) := by
    rintro token rfl
    exact ⟨trivial, by decide⟩
  have countEnough : parts.length ≤ bound + 1 := by omega
  have rows := Takes.items trivial ends nonempty each countEnough
  have begins : (commaSeparated (parts.map Prod.snd)).head? = some (.symbol .openBracket) := by
    cases parts with
    | nil => exact absurd rfl nonempty
    | cons part others =>
        rcases (derives part List.mem_cons_self).opens with ⟨head, isHead, rfl⟩
        simp [commaSeparated, Option.mem_def.mp isHead]
  refine Takes.dispatch (Expr.arrayFrom _ _) (fun _ _ => rfl) fun start => ?_
  rw [Expr.arrayFrom]
  refine Takes.peek? fun token _ => ?_
  rw [List.head?_append, begins]
  refine rows.bind (fun _ _ => rfl) ?_
  intro trees rowsAre
  refine Takes.expect fun close => Takes.pure ?_
  rw [Expr.bare, Row.bareAll_eq_map, rowsAre]

theorem Phrase.Complete.target {expr : Expr} {tokens : List Token}
    (complete : (Phrase.target expr).Complete tokens)
    (derives : (Phrase.target expr).Derives tokens) : (Phrase.primary expr).Complete tokens := by
  intro depth bound deep enough taken rest spells ends
  rcases complete depth bound deep enough taken rest spells ends with ⟨tree, ran, isTree⟩
  refine ⟨tree, ?_, isTree⟩
  cases derives with
  | var name =>
      rcases List.map_eq_cons_iff.mp spells with ⟨⟨item, span⟩, others, rfl, same, _⟩
      cases same
      exact ran
  | reference =>
      rcases List.map_eq_cons_iff.mp spells with ⟨⟨item, span⟩, others, rfl, same, _⟩
      cases same
      exact ran

theorem Phrase.Complete.var (name : String) :
    (Phrase.target (.var default name)).Complete [.identifier name] := by
  intro depth bound _ _
  rw [Expr.variableOrReference]
  refine Takes.identifier fun span => ?_
  refine Takes.peek? fun token ends => ?_
  split
  · rename_i seen
    exact absurd seen (ends.ne (Nat.le_refl 0))
  · exact Takes.pure rfl

/-! ## Coordinates -/

theorem colons_take (nested : Reader Expr) (count : Nat) {fuel : Nat} (enough : count < fuel)
    (sliced : Bool) :
    Takes (Expr.coordinates nested fuel sliced) (.symbol .colon :: trailingColons count)
      (· = some (.symbol .closeBracket)) (· = []) := by
  induction count generalizing fuel sliced with
  | zero =>
      cases fuel with
      | zero => omega
      | succ fuel =>
          rw [Expr.coordinates]
          refine Takes.accept? fun span => ?_
          refine Takes.pass ?_ (Takes.pure rfl)
          rintro token rfl
          decide
  | succ count ih =>
      cases fuel with
      | zero => omega
      | succ fuel =>
          rw [Expr.coordinates, trailingColons_succ]
          refine Takes.accept? fun span => ?_
          refine Takes.accept? fun comma => ?_
          exact ih (by omega) true

theorem coordinates_follow (others : List (Expr × List Token)) (count : Nat)
    (token : Option Token) (closes : token = some (.symbol .closeBracket)) :
    EndsBefore 6 (((others.map Prod.snd).flatMap (fun part => .symbol .comma :: part) ++
      trailingColons count).head?.or token) := by
  subst closes
  cases others with
  | nil =>
      cases count with
      | zero => exact EndsBefore.of_some (by decide)
      | succ count => exact EndsBefore.of_some (by decide)
  | cons part rest => exact EndsBefore.of_some (by decide)

theorem Ready.coordinates {parts : List (Expr × List Token)} (ready : Ready parts)
    (nonempty : parts ≠ []) (count : Nat) {depth fuel : Nat}
    (deep : (commaSeparated (parts.map Prod.snd)).length < depth)
    (enough : parts.length + count ≤ fuel) :
    Takes (Expr.coordinates (Expr.reader depth) fuel false)
      (commaSeparated (parts.map Prod.snd) ++ trailingColons count)
      (· = some (.symbol .closeBracket))
      (fun exprs => Expr.bareAll exprs = parts.map Prod.fst) := by
  induction parts generalizing fuel with
  | nil => exact absurd rfl nonempty
  | cons part others ih =>
      have headTakes := ready.takes deep part List.mem_cons_self
      have derives := ready.derives part List.mem_cons_self
      have differs {symbol : Symbol} (delimits : symbol.Delimits) (back : List Token)
          (token : Option Token) : (part.2 ++ back).head?.or token ≠ some (.symbol symbol) := by
        rcases derives.head_ne delimits with ⟨head, begins, isOther⟩
        rw [List.head?_append, Option.mem_def.mp begins]
        simpa using isOther
      rw [List.length_cons] at enough
      cases fuel with
      | zero => omega
      | succ fuel =>
          rw [Expr.coordinates, List.map_cons, commaSeparated, List.append_assoc]
          refine Takes.pass (fun token _ => differs ⟨by decide, rfl⟩ _ token) ?_
          rw [if_neg Bool.false_ne_true]
          refine Takes.peek? fun token _ => ?_
          split
          · rename_i seen
            exact absurd seen (differs ⟨by decide, rfl⟩ _ token)
          · refine headTakes.bind (coordinates_follow others count) fun head headIs => ?_
            cases others with
            | nil =>
                have alone : Expr.bareAll [head] = [part].map Prod.fst :=
                  congrArg (fun tree => [tree]) headIs
                cases count with
                | zero =>
                    refine Takes.pass ?_ (Takes.pure alone)
                    rintro token rfl
                    decide
                | succ count =>
                    rw [List.map_nil, List.flatMap_nil, List.nil_append, trailingColons_succ]
                    refine Takes.accept? fun comma => ?_
                    refine (colons_take _ count (by omega) false).last (fun _ goesOn => goesOn) ?_
                    rintro _ rfl
                    exact Takes.pure alone
            | cons next more =>
                have tailEnough : (next :: more).length + count ≤ fuel := by omega
                have tailDeep :
                    (commaSeparated ((next :: more).map Prod.snd)).length < depth := by
                  rw [List.map_cons, List.map_cons, commaSeparated_cons_cons,
                    List.length_append, List.length_cons] at deep
                  rw [List.map_cons]
                  omega
                rw [List.map_cons, List.flatMap_cons, List.append_assoc, List.cons_append]
                refine Takes.accept? fun comma => ?_
                have tailTakes := ih ready.tail (List.cons_ne_nil _ _) tailDeep tailEnough
                rw [← List.append_assoc]
                refine tailTakes.last (fun _ goesOn => goesOn) ?_
                intro tail tailIs
                refine Takes.pure ?_
                rw [Expr.bareAll, headIs, tailIs]
                rfl

theorem Ready.reference {name : String} {parts : List (Expr × List Token)} (ready : Ready parts)
    (nonempty : parts ≠ []) (colons : Nat) :
    (Phrase.target (.reference default ⟨name, default⟩ (parts.map Prod.fst))).Complete
      (.identifier name :: .symbol .openBracket ::
        (commaSeparated (parts.map Prod.snd) ++ trailingColons colons ++
          [.symbol .closeBracket])) := by
  intro depth bound deep enough
  have count := count_le_commaSeparated (parts.map Prod.snd)
  rw [List.length_map] at count
  simp only [List.length_cons, List.length_append, length_trailingColons,
    List.length_nil] at deep enough
  have shortEnough : (commaSeparated (parts.map Prod.snd)).length < depth := by omega
  have fuelEnough : parts.length + colons ≤ bound := by omega
  have coordinates := ready.coordinates nonempty colons shortEnough fuelEnough
  rw [Expr.variableOrReference]
  refine Takes.identifier fun span => ?_
  refine Takes.peek? fun token _ => ?_
  show Takes (Expr.referenceFrom (Expr.reader depth) bound ⟨name, span⟩) _ _ _
  rw [Expr.referenceFrom]
  refine Takes.expect fun start => ?_
  refine coordinates.bind (fun _ _ => rfl) ?_
  intro exprs exprsAre
  refine Takes.expect fun close => ?_
  cases exprs with
  | nil =>
      rw [Expr.bareAll, eq_comm, List.map_eq_nil_iff] at exprsAre
      exact absurd exprsAre nonempty
  | cons head tail =>
      refine Takes.pure ?_
      rw [Expr.bare, exprsAre]

/-! ## All phrases -/

/-- Whatever a phrase derives, its reader takes. -/
theorem Phrase.Derives.complete {phrase : Phrase} {tokens : List Token}
    (derives : phrase.Derives tokens) : phrase.Complete tokens := by
  induction derives with
  | sum _ ih => exact Phrase.Complete.sum ih
  | compare _ means _ first second => exact Phrase.Complete.compare first means second
  | operand _ ih => exact Phrase.Complete.operand ih
  | binary _ means _ first second => exact Phrase.Complete.binary first means second
  | quoted derived ih => exact Phrase.Complete.quoted ih derived.opens
  | negate _ ih => exact Phrase.Complete.negate ih
  | primary _ ih => exact Phrase.Complete.primary ih
  | transpose _ ih => exact Phrase.Complete.transpose ih
  | int value =>
      intro depth bound _ _
      exact Takes.dispatch (fun span => pure (.int span value)) (fun _ _ => rfl)
        fun _ => Takes.pure rfl
  | float value =>
      intro depth bound _ _
      exact Takes.dispatch (fun span => pure (.float span value)) (fun _ _ => rfl)
        fun _ => Takes.pure rfl
  | string value =>
      intro depth bound _ _
      exact Takes.dispatch (fun span => pure (.string span value)) (fun _ _ => rfl)
        fun _ => Takes.pure rfl
  | target derived ih => exact Phrase.Complete.target ih derived
  | call each ih => exact Ready.call ⟨each, ih⟩
  | parenthesized _ ih => exact Phrase.Complete.parenthesized ih
  | vector each oneBracket ih => exact Ready.vector ⟨each, ih⟩ oneBracket
  | matrix nonempty each ih => exact Phrase.Complete.matrix nonempty each ih
  | row each ih => exact Ready.row ⟨each, ih⟩
  | var name => exact Phrase.Complete.var name
  | reference nonempty each colons ih => exact Ready.reference ⟨each, ih⟩ nonempty colons

end MatrixScript
