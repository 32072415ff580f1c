import MatrixScript.Proofs.Token.Spelling
import MatrixScript.Proofs.Stmt.Layout
import MatrixScript.Proofs.Stmt.ParserCompleteness

/-!
# Printed numbers can be read back

What is printed for an integer, or for a vector or a matrix of integers, is the text of an
expression, and this expression has the printed value.  A negative number is read as a minus
sign in front of a literal, so the least number is left out: its magnitude is no literal.

The way leads through the tokens.  `Value.Written` says which tokens the printed text is cut
into, whatever follows it, as long as that does not carry on a number.
-/

namespace MatrixScript

open Token

/-! ## Printed values and their tokens -/

/-- The text goes on with one of the marks that may stand behind a printed value. -/
def Delimits (more : List Char) : Prop :=
  ∀ next ∈ more.head?, next = ',' ∨ next = ']' ∨ next = ';'

theorem Delimits.endsAt {more : List Char} (delimits : Delimits more) : Numeral.EndsAt more := by
  intro next begins
  rcases delimits next begins with rfl | rfl | rfl <;> decide

/-- What is printed for the value is cut into these tokens, whatever mark stands behind it. -/
def Value.Written (value : Value) (tokens : List Token) : Prop :=
  ∀ more others, Delimits more → Spells more others →
    Spells (value.text.toList ++ more) (tokens ++ others)

namespace Literal

/-- The tokens of a printed integer. -/
def tokens (number : Int64) : List Token :=
  if number < 0 then [.symbol .minus, .int (-number)] else [.int number]

/-- The expression that a printed integer is read as. -/
def expr (number : Int64) : Expr :=
  if number < 0 then .unary default .negate (.int default (-number)) else .int default number

theorem text_negative (size : Nat) :
    (toString (Int.negSucc size)).toList = '-' :: Nat.toDigits 10 (size + 1) :=
  String.toList_append.trans (congrArg ('-' :: ·) String.toList_ofList)

theorem written_of_nonneg {number : Int64} (notNegative : ¬ number < 0) :
    (Value.int number).Written [.int number] := by
  intro more others delimits spells
  rw [Int64.lt_iff_toInt_lt, Int64.toInt_zero, Int.not_lt] at notNegative
  exact spells.nonnegative notNegative delimits.endsAt

theorem written_of_neg {number : Int64} (negative : number < 0)
    (above : Int64.minValue < number) :
    (Value.int number).Written [.symbol .minus, .int (-number)] := by
  intro more others delimits spells
  rw [Int64.lt_iff_toInt_lt, Int64.toInt_zero] at negative
  rw [Int64.lt_iff_toInt_lt, Int64.toInt_minValue] at above
  rcases Int.eq_negSucc_of_lt_zero negative with ⟨size, is⟩
  have limit : Nat.pow 2 63 = 9223372036854775808 := rfl
  have fits : size + 1 < Nat.pow 2 63 := by omega
  have same : Int64.ofNat (size + 1) = -number := by
    rw [← Int64.toInt_inj, Int64.toInt_ofNat_of_lt fits, Int64.toInt_neg, Int.bmod_eq_of_le]
    · omega
    · omega
    · omega
  have apart : (Nat.toDigits 10 (size + 1) ++ more).head? ≠ some '=' := by
    cases digits : Nat.toDigits 10 (size + 1) with
    | nil => exact absurd digits Nat.toDigits_ne_nil
    | cons first rest =>
        rintro ⟨⟩
        have digit : '='.isDigit = true :=
          Nat.isDigit_of_mem_toDigits (by decide) (by decide) (digits ▸ List.mem_cons_self)
        cases digit
  rw [Value.text, is, text_negative, ← same]
  exact (spells.natural fits delimits.endsAt).symbol .minus fun _ => apart

theorem written {number : Int64} (above : Int64.minValue < number) :
    (Value.int number).Written (tokens number) := by
  unfold tokens
  split
  · rename_i negative
    exact written_of_neg negative above
  · rename_i notNegative
    exact written_of_nonneg notNegative

/-- The tokens of a printed array, given those of its items. -/
def arrayTokens (parts : List (List Token)) : List Token :=
  .symbol .openBracket :: (commaSeparated parts ++ [.symbol .closeBracket])

end Literal

namespace Value.Written

variable {α : Type} {value : α → Value} {tokens : α → List Token}

theorem textRest_delimits (items : List Value) {more : List Char} (delimits : Delimits more) :
    Delimits ((textRest items).toList ++ more) := by
  cases items with
  | nil => exact delimits
  | cons head tail =>
      rw [Value.textRest, String.append_assoc, String.toList_append]
      rintro next ⟨⟩
      exact .inl rfl

/-- The items behind the first, each behind a comma. -/
theorem textRest {items : List α} (each : ∀ item ∈ items, (value item).Written (tokens item))
    {more : List Char} {others : List Token} (delimits : Delimits more)
    (spells : Spells more others) :
    Spells ((Value.textRest (items.map value)).toList ++ more)
      (((items.map tokens).flatMap fun part => .symbol .comma :: part) ++ others) := by
  induction items with
  | nil => exact spells
  | cons head tail ih =>
      rw [List.forall_mem_cons] at each
      have behind := each.1 _ _ (textRest_delimits (tail.map value) delimits) (ih each.2)
      have separated := behind.blank.symbol .comma (by rintro ⟨⟩)
      simpa [Value.textRest, Symbol.text] using separated

/-- An array is written as its items are, in brackets and with commas between them. -/
theorem array {items : List α} (each : ∀ item ∈ items, (value item).Written (tokens item)) :
    (Value.array (items.map value)).Written (Literal.arrayTokens (items.map tokens)) := by
  intro more others delimits spells
  have closes := spells.symbol .closeBracket (by rintro ⟨⟩)
  have closing : Delimits (Symbol.closeBracket.text.toList ++ more) := by
    rintro next ⟨⟩
    exact .inr (.inl rfl)
  cases items with
  | nil => simpa [Value.text, Literal.arrayTokens, commaSeparated, Symbol.text] using
      closes.symbol .openBracket (by rintro ⟨⟩)
  | cons head tail =>
      rw [List.forall_mem_cons] at each
      have rest := textRest each.2 closing closes
      have inside := each.1 _ _ (textRest_delimits (tail.map value) closing) rest
      have opened := inside.symbol .openBracket (by rintro ⟨⟩)
      simpa [Value.text, Literal.arrayTokens, commaSeparated, Symbol.text] using opened

end Value.Written

/-! ## Printed values and their expressions -/

theorem Phrase.Derives.whole_of_signed {expr : Expr} {tokens : List Token}
    (derives : (Phrase.signed expr).Derives tokens) : (Phrase.whole expr).Derives tokens := by
  have dotProduct : (Phrase.chain .dotProduct expr).Derives tokens := .operand derives
  have product : (Phrase.chain .product expr).Derives tokens := .operand dotProduct
  have dotSum : (Phrase.chain .dotSum expr).Derives tokens := .operand product
  exact .sum (.operand dotSum)

/-- The value is printed as the text of an expression that denotes it everywhere. -/
def Value.ReadsBack (value : Value) : Prop :=
  ∃ expr tokens, value.Written tokens ∧ (Phrase.whole expr).Derives tokens ∧
    ∀ memory, expr.eval memory = .ok value

namespace Literal

theorem derives (number : Int64) : (Phrase.whole (expr number)).Derives (tokens number) := by
  apply Phrase.Derives.whole_of_signed
  unfold expr tokens
  split
  · exact .negate (.quoted (.primary (.int _)))
  · exact .quoted (.primary (.int _))

theorem eval_expr (memory : Memory) (number : Int64) :
    (expr number).eval memory = .ok (.int number) := by
  unfold expr
  split
  · simp only [Expr.eval, ok_bind, Value.unary, Value.negate, Int64.neg_neg]
  · rw [Expr.eval]

theorem evalAll_exprs (memory : Memory) (numbers : List Int64) :
    Expr.evalAll memory (numbers.map expr) = .ok (numbers.map .int) := by
  induction numbers with
  | nil => rfl
  | cons head tail ih => simp only [List.map_cons, Expr.evalAll, eval_expr, ok_bind, ih]

/-- The row that a printed row is read as. -/
def row (numbers : List Int64) : Row :=
  .mk default (numbers.map expr)

theorem rowEvalAll_rows (memory : Memory) (rows : List (List Int64)) :
    Row.evalAll memory (rows.map row) =
      .ok (rows.map fun numbers => .array (numbers.map .int)) := by
  induction rows with
  | nil => rfl
  | cons head tail ih => simp only [List.map_cons, row, Row.evalAll, evalAll_exprs, ok_bind, ih]

theorem vector_derives (numbers : List Int64) :
    (Phrase.whole (.vector default (numbers.map expr))).Derives
      (arrayTokens (numbers.map tokens)) := by
  have parts := @Phrase.Derives.vector (numbers.map fun number => (expr number, tokens number))
  simp only [List.map_map, Function.comp_def, List.forall_mem_map] at parts
  refine .whole_of_signed (.quoted (.primary (parts (fun number _ => derives number) ?_)))
  cases numbers with
  | nil => rintro ⟨⟩
  | cons head tail =>
      simp only [List.map_cons, commaSeparated, tokens]
      split <;> rintro ⟨⟩

theorem row_derives (numbers : List Int64) :
    (Phrase.row (row numbers)).Derives (arrayTokens (numbers.map tokens)) := by
  have parts := @Phrase.Derives.row (numbers.map fun number => (expr number, tokens number))
  simp only [List.map_map, Function.comp_def, List.forall_mem_map] at parts
  exact parts fun number _ => derives number

theorem matrix_derives {rows : List (List Int64)} (nonempty : rows ≠ []) :
    (Phrase.whole (.matrix default (rows.map row))).Derives
      (arrayTokens (rows.map fun numbers => arrayTokens (numbers.map tokens))) := by
  have parts := @Phrase.Derives.matrix
    (rows.map fun numbers => (row numbers, arrayTokens (numbers.map tokens)))
  simp only [List.map_map, Function.comp_def, List.forall_mem_map, ne_eq,
    List.map_eq_nil_iff] at parts
  exact .whole_of_signed
    (.quoted (.primary (parts nonempty fun numbers _ => row_derives numbers)))

theorem int_readsBack {number : Int64} (above : Int64.minValue < number) :
    (Value.int number).ReadsBack :=
  ⟨expr number, tokens number, written above, derives number, fun memory => eval_expr memory number⟩

theorem vector_readsBack {numbers : List Int64}
    (above : ∀ number ∈ numbers, Int64.minValue < number) :
    (Value.array (numbers.map .int)).ReadsBack := by
  refine ⟨_, _, Value.Written.array fun number member => written (above number member),
    vector_derives numbers, fun memory => ?_⟩
  rw [Expr.eval, evalAll_exprs]
  rfl

theorem matrix_readsBack {rows : List (List Int64)}
    (above : ∀ numbers ∈ rows, ∀ number ∈ numbers, Int64.minValue < number) :
    (Value.array (rows.map fun numbers => .array (numbers.map .int))).ReadsBack := by
  by_cases empty : rows = []
  · subst empty
    exact vector_readsBack (List.forall_mem_nil _)
  · refine ⟨_, _, Value.Written.array fun numbers inRows => .array fun number inRow =>
      written (above numbers inRows number inRow), matrix_derives empty, fun memory => ?_⟩
    rw [Expr.eval, rowEvalAll_rows]
    rfl

end Literal

/-! ## Programs that return a printed value -/

/--
An integer, a vector of integers or a matrix of integers, of any sizes and with rows of any
lengths, and without the least integer.
-/
inductive Value.Legible : Value → Prop where
  | int {number : Int64} (above : Int64.minValue < number) : Legible (.int number)
  | vector {numbers : List Int64} (above : ∀ number ∈ numbers, Int64.minValue < number) :
      Legible (.array (numbers.map .int))
  | matrix {rows : List (List Int64)}
      (above : ∀ numbers ∈ rows, ∀ number ∈ numbers, Int64.minValue < number) :
      Legible (.array (rows.map fun numbers => .array (numbers.map .int)))

theorem Value.Legible.readsBack {value : Value} (legible : value.Legible) : value.ReadsBack := by
  cases legible with
  | int above => exact Literal.int_readsBack above
  | vector above => exact Literal.vector_readsBack above
  | matrix above => exact Literal.matrix_readsBack above

namespace Program

/-- The tokens of a program that returns something written. -/
theorem spells_return {value : Value} {tokens : List Token} (written : value.Written tokens) :
    Spells ("return " ++ value.text ++ ";").toList
      (.keyword .«return» :: (tokens ++ [.symbol .semicolon])) := by
  have ending := Spells.nil.symbol .semicolon (by rintro ⟨⟩)
  have printed := written _ _ (by rintro next ⟨⟩; exact .inr (.inr rfl)) ending
  have reads : Lexeme.read 'r' ("eturn ".toList ++ (value.text.toList ++ ";".toList)) =
      .ok ⟨"return".toList, some (.keyword .«return»)⟩ :=
    rfl
  rw [String.toList_append, String.toList_append, List.append_assoc]
  exact printed.blank.lexeme reads rfl

theorem derives_return {expr : Expr} {tokens : List Token}
    (derives : (Phrase.whole expr).Derives tokens) :
    Program.Derives ⟨[.return default (some expr)]⟩
      (.keyword .«return» :: (tokens ++ [.symbol .semicolon])) := by
  refine ⟨[(_, _)], rfl, (List.append_nil _).symm, ?_⟩
  intro part member
  cases List.mem_singleton.mp member
  exact .simple (.returnValue derives)

theorem run_return {program : Program} {expr : Expr} {value : Value}
    (isReturn : program.bare = ⟨[.return default (some expr)]⟩)
    (evaluates : ∀ memory, expr.eval memory = .ok value) (allowance : Nat) (machine : Machine) :
    program.run allowance machine = some ⟨.ok (some value), machine⟩ := by
  have bare := run_bare program allowance machine
  rw [isReturn] at bare
  have returns : Program.run allowance ⟨[.return default (some expr)]⟩ machine =
      some ⟨.ok (some value), machine⟩ := by
    simp only [run, Stmt.execAll, Stmt.exec_eq, Stmt.unwrapped, Stmt.returned, evaluates, ok_bind]
    rfl
  rw [returns] at bare
  rcases Option.map_eq_some_iff.mp bare.symm with ⟨⟨result, after⟩, runs, same⟩
  rw [runs]
  cases result with
  | error error => cases same
  | ok value =>
      cases same
      rfl

/--
Printed integers, vectors and matrices can be read back.  The text that returns what was
printed for such a value is a program, and on every machine this program returns the value
and leaves the machine as it was.
-/
theorem parse_printed {value : Value} (legible : value.Legible) :
    ∃ tokens program, Token.scan ("return " ++ value.text ++ ";") = .ok tokens ∧
      parse ("return " ++ value.text ++ ";") = .ok program ∧
      ∀ allowance machine,
        program.run allowance machine = some ⟨.ok (some value), machine⟩ := by
  rcases legible.readsBack with ⟨expr, tokens, written, derives, evaluates⟩
  rcases (spells_return written).scan with ⟨cut, scans, spelling⟩
  have whole := derives_return derives
  rw [← spelling] at whole
  rcases ofTokens_complete whole with ⟨program, reads, isReturn⟩
  refine ⟨cut, program, scans, ?_, run_return isReturn evaluates⟩
  rw [parse, scans]
  dsimp only
  rw [reads]

/-- The matrix `[[], [-1, 20]]`. -/
def Sample.ragged : Value :=
  .array [.array [], .array [.int (-1), .int 20]]

theorem parse_printed_ragged :
    Sample.ragged.Legible ∧
      ∃ tokens program, Token.scan ("return " ++ Sample.ragged.text ++ ";") = .ok tokens ∧
        parse ("return " ++ Sample.ragged.text ++ ";") = .ok program ∧
        ∀ allowance machine,
          program.run allowance machine = some ⟨.ok (some Sample.ragged), machine⟩ := by
  have above : ∀ numbers ∈ ([[], [-1, 20]] : List (List Int64)), ∀ number ∈ numbers,
      Int64.minValue < number := by
    simp only [List.forall_mem_cons, List.not_mem_nil, false_implies, implies_true, and_true,
      true_and, Int64.lt_iff_toInt_lt]
    decide
  exact ⟨.matrix above, parse_printed (.matrix above)⟩

end Program

end MatrixScript
