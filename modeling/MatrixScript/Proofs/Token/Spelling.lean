import MatrixScript.Proofs.Token.Scanner

/-!
# The tokens of a text, wherever it stands

`Token.Spells` leaves positions out: the text is cut into these tokens at any place of a
source.  A text is spelled from its end: the lemmas here put a blank, a symbol or the digits
of a number in front of a text whose tokens are known, and say what that text must not
begin with.
-/

namespace MatrixScript

open TokenStream

namespace Token

/-- The text is cut into lexemes with these tokens, wherever it stands. -/
def Spells (chars : List Char) (tokens : List Token) : Prop :=
  ∀ position, ∃ cut, Cuts position chars cut ∧ spelling cut = tokens

namespace Spells

theorem nil : Spells [] [] :=
  fun position => ⟨[], .nil position, rfl⟩

/-- A lexeme in front adds its token, if it has one. -/
theorem lexeme {first : Char} {rest more : List Char} {lexeme : Lexeme} {tokens : List Token}
    (reads : Lexeme.read first rest = .ok lexeme)
    (splits : first :: rest = lexeme.chars ++ more) (spells : Spells more tokens) :
    Spells (first :: rest) (lexeme.token?.toList ++ tokens) := by
  intro position
  rcases spells (position.advance lexeme.chars) with ⟨cut, cuts, rfl⟩
  refine ⟨_, .cons reads splits cuts, ?_⟩
  rw [spelling_append]
  congr 1
  cases token : lexeme.token? <;> simp [Lexeme.located, token, spelling]

theorem scan {source : String} {tokens : List Token} (spells : Spells source.toList tokens) :
    ∃ cut : TokenStream, Token.scan source = .ok cut ∧ cut.spelling = tokens := by
  rcases spells .origin with ⟨cut, cuts, same⟩
  exact ⟨cut, scan_eq_ok_iff.mpr cuts, same⟩

end Spells

end Token

open Token

/-! ## Blanks -/

theorem Lexeme.read_of_isSpace {first : Char} (space : isSpace first = true)
    (rest : List Char) : read first rest = .ok ⟨first :: rest.takeWhile isSpace, none⟩ := by
  rw [read, if_pos space]

/-- A blank in front of a text changes nothing. -/
theorem Token.Spells.blank {more : List Char} {tokens : List Token}
    (spells : Spells more tokens) : Spells (' ' :: more) tokens := by
  have reads := Lexeme.read_of_isSpace (show Lexeme.isSpace ' ' = true from rfl) more
  cases more with
  | nil => exact spells.lexeme reads rfl
  | cons next rest =>
      cases space : Lexeme.isSpace next with
      | false =>
          rw [List.takeWhile_cons_of_neg (by simp [space])] at reads
          exact spells.lexeme reads rfl
      | true =>
          rw [List.takeWhile_cons_of_pos space] at reads
          -- The blank joins the blanks behind it to one lexeme, and the rest is cut as before.
          intro position
          rcases spells (position.advance [' ']) with ⟨cut, cuts, same⟩
          cases cuts with
          | cons readsNext splits cuts =>
              rw [Lexeme.read_of_isSpace space] at readsNext
              cases readsNext
              rw [← Position.advance_append] at cuts
              exact ⟨_, .cons reads (congrArg _ splits) cuts, same⟩

/-! ## Symbols -/

/-- An equals sign behind the symbol makes a longer symbol of it. -/
def Symbol.isOpenEnded : Symbol → Bool
  | .less | .greater | .plus | .minus | .star | .slash | .equal => true
  | _ => false

theorem Symbol.read?_text (symbol : Symbol) {more : List Char}
    (apart : symbol.isOpenEnded = true → more.head? ≠ some '=') :
    read? (symbol.text.toList ++ more) = some symbol := by
  cases more with
  | nil => cases symbol <;> rfl
  | cons next rest =>
      have noEqual (isOpen : symbol.isOpenEnded = true) :
          ['='].isPrefixOf (next :: rest) = false := by
        have different : next ≠ '=' := fun same => apart isOpen (congrArg some same)
        simpa [List.isPrefixOf] using different.symm
      cases symbol <;> simp [read?, all, text] <;> exact noEqual rfl

theorem Symbol.first_plain (symbol : Symbol) :
    ∀ first ∈ symbol.text.toList.head?, Lexeme.isSpace first = false ∧ first ≠ '#' ∧
      Lexeme.isWordStart first = false ∧ first.isDigit = false ∧ first ≠ '"' := by
  cases symbol <;> rintro first ⟨⟩ <;> decide

theorem Token.Spells.symbol (symbol : Symbol) {more : List Char} {tokens : List Token}
    (apart : symbol.isOpenEnded = true → more.head? ≠ some '=') (spells : Spells more tokens) :
    Spells (symbol.text.toList ++ more) (.symbol symbol :: tokens) := by
  have found := symbol.read?_text apart
  have plain := symbol.first_plain
  cases spelled : symbol.text.toList with
  | nil => exact absurd spelled symbol.text_ne_nil
  | cons first rest =>
      rw [spelled] at found plain
      rcases plain first rfl with ⟨notSpace, notComment, notWord, notDigit, notQuote⟩
      have reads : Lexeme.read first (rest ++ more) =
          .ok ⟨first :: rest, some (.symbol symbol)⟩ := by
        rw [Lexeme.read, notSpace, notWord, notDigit, if_neg notComment, if_neg notQuote,
          ← List.cons_append, found, ← spelled]
        rfl
      exact spells.lexeme reads rfl

/-! ## Digits -/

/-- The text does not carry on a number. -/
def Numeral.EndsAt (more : List Char) : Prop :=
  ∀ next ∈ more.head?, next.isDigit = false ∧ next ≠ '.' ∧ next ≠ 'e' ∧ next ≠ 'E'

theorem takeWhile_append_of_stop {part : Char → Bool} {run more : List Char}
    (all : ∀ char ∈ run, part char = true) (stops : ∀ next ∈ more.head?, part next = false) :
    (run ++ more).takeWhile part = run := by
  rw [List.takeWhile_append_of_pos all]
  cases more with
  | nil => simp
  | cons next rest => simp [stops next rfl]

theorem Numeral.read_digits {digits more : List Char}
    (allDigits : ∀ digit ∈ digits, digit.isDigit = true) (ends : EndsAt more) :
    read (digits ++ more) = ⟨digits, none, none⟩ := by
  have whole : (digits ++ more).takeWhile Char.isDigit = digits :=
    takeWhile_append_of_stop allDigits fun next begins => (ends next begins).1
  have fraction : readFraction? more = none := by
    unfold readFraction?
    split
    · exact absurd rfl (ends '.' rfl).2.1
    · rfl
  have exponent : ExponentPart.read? more = none := by
    cases more with
    | nil => rfl
    | cons next rest =>
        rcases ends next rfl with ⟨_, _, notSmall, notLarge⟩
        simp [ExponentPart.read?, notSmall, notLarge]
  simp [read, whole, fraction, fractionChars, exponent]

/-- The letters and the underscore come behind the digits. -/
theorem Lexeme.isWordStart_of_isDigit {first : Char} (digit : first.isDigit = true) :
    isWordStart first = false := by
  have atMost : first.val.toNat ≤ 57 := (Char.isDigit_iff_toNat.mp digit).2
  have below (bound : UInt32) (large : 57 < bound.toNat) : ¬ bound ≤ first.val := by
    rw [UInt32.le_iff_toNat_le]
    omega
  have upper : first.isUpper = false :=
    decide_eq_false fun both => below 65 (by decide) both.1
  have lower : first.isLower = false :=
    Bool.and_eq_false_iff.mpr (.inl (decide_eq_false (below 97 (by decide))))
  have underscore : (first == '_') = false := by
    rw [beq_eq_false_iff_ne]
    rintro rfl
    cases digit
  show ((first.isUpper || first.isLower) || first == '_') = false
  rw [upper, lower, underscore]
  rfl

theorem Lexeme.read_of_isDigit {first : Char} {rest : List Char} {token : Token}
    (digit : first.isDigit = true) (isToken : (Numeral.read (first :: rest)).token? = some token) :
    read first rest = .ok ⟨(Numeral.read (first :: rest)).chars, some token⟩ := by
  have notSpace : isSpace first = false := by
    cases space : isSpace first with
    | false => rfl
    | true =>
        simp only [isSpace, Bool.or_eq_true, beq_iff_eq] at space
        rcases space with ((rfl | rfl) | rfl) | rfl <;> cases digit
  have notComment : first ≠ '#' := by
    rintro rfl
    cases digit
  rw [read, notSpace, if_neg Bool.false_ne_true, if_neg notComment, isWordStart_of_isDigit digit,
    if_neg Bool.false_ne_true, digit, if_pos rfl]
  dsimp only
  rw [isToken]

/-- The digits of a number are one token. -/
theorem Token.Spells.natural {number : Nat} {more : List Char} {tokens : List Token}
    (fits : number < Nat.pow 2 63) (ends : Numeral.EndsAt more) (spells : Spells more tokens) :
    Spells (Nat.toDigits 10 number ++ more) (.int (Int64.ofNat number) :: tokens) := by
  have digits : ∀ digit ∈ Nat.toDigits 10 number, digit.isDigit = true :=
    fun digit => Nat.isDigit_of_mem_toDigits (by decide) (by decide)
  have value : Decimal.natural (Nat.toDigits 10 number) = number :=
    Nat.ofDigitChars_toDigits (by decide) (by decide)
  have numeral := Numeral.read_digits digits ends
  cases spelled : Nat.toDigits 10 number with
  | nil => exact absurd spelled Nat.toDigits_ne_nil
  | cons first rest =>
      rw [spelled] at digits value numeral
      have reads : Lexeme.read first (rest ++ more) =
          .ok ⟨first :: rest, some (.int (Int64.ofNat number))⟩ := by
        have isToken : (Numeral.read (first :: (rest ++ more))).token? =
            some (.int (Int64.ofNat number)) := by
          rw [← List.cons_append, numeral]
          simp [Numeral.token?, value, fits]
        rw [Lexeme.read_of_isDigit (digits first List.mem_cons_self) isToken, ← List.cons_append,
          numeral]
        simp [Numeral.chars, Numeral.fractionChars]
      exact spells.lexeme reads rfl

/-- A number that is not negative is written with digits only, and they are its token. -/
theorem Token.Spells.nonnegative {number : Int64} {more : List Char} {tokens : List Token}
    (notNegative : 0 ≤ number.toInt) (ends : Numeral.EndsAt more) (spells : Spells more tokens) :
    Spells ((toString number.toInt).toList ++ more) (.int number :: tokens) := by
  rcases Int.eq_ofNat_of_zero_le notNegative with ⟨size, is⟩
  have limit : Nat.pow 2 63 = 9223372036854775808 := rfl
  have fits : size < Nat.pow 2 63 := by
    have high := number.toInt_lt
    omega
  have same : Int64.ofNat size = number := by
    rw [← Int64.toInt_inj, is, Int64.toInt_ofNat_of_lt fits]
  have digits : (toString (size : Int)).toList = Nat.toDigits 10 size := String.toList_ofList
  rw [is, digits, ← same]
  exact spells.natural fits ends

end MatrixScript
