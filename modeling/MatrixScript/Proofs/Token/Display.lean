import MatrixScript.Proofs.Token.Strings

/-!
# Tokens shown and scanned again

The text of a token is what error messages show.  It is also source text, and as long as the
token is `Token.Legible`, scanning this text gives the token back.  A blank behind a token keeps
it apart from the next one: no lexeme that begins with a token can go on over the blank, and a
string, in which blanks may stand, has come to its closing quote.  So tokens that are shown with
single blanks between them are scanned as they were, in any order: `Token.scan_spaced`.
-/

namespace MatrixScript

open Token

/-! ## What stands behind a token -/

/-- The text ends here, or goes on with a blank. -/
def Separated (more : List Char) : Prop :=
  ∀ next ∈ more.head?, next = ' '

namespace Separated

variable {more : List Char}

theorem nil : Separated [] := by
  rintro next ⟨⟩

theorem blank (more : List Char) : Separated (' ' :: more) := by
  rintro next ⟨⟩
  rfl

theorem endsAt (separated : Separated more) : Numeral.EndsAt more := by
  intro next begins
  cases separated next begins
  decide

theorem not_isWordPart (separated : Separated more) :
    ∀ next ∈ more.head?, Lexeme.isWordPart next = false := by
  intro next begins
  cases separated next begins
  rfl

theorem head?_ne_equal (separated : Separated more) : more.head? ≠ some '=' := by
  intro begins
  cases separated '=' begins

end Separated

/-! ## Words -/

/-- A keyword is shown as the word that is read as it. -/
theorem Keyword.display_eq_text (word : Keyword) : word.display = word.text := by
  cases word <;> rfl

/-- A symbol is shown as the characters that are read as it. -/
theorem Symbol.display_eq_text (mark : Symbol) : mark.display = mark.text := by
  cases mark <;> rfl

namespace Lexeme

/-- A word is read whole if no character behind it carries it on. -/
theorem read_word {first : Char} {rest more : List Char} (isStart : isWordStart first = true)
    (areParts : ∀ next ∈ rest, isWordPart next = true)
    (stops : ∀ next ∈ more.head?, isWordPart next = false) :
    read first (rest ++ more) =
      .ok ⟨first :: rest, some (wordToken (String.ofList (first :: rest)))⟩ := by
  rcases Opening.not_blank isStart rfl with ⟨notBlank, notHash⟩
  rw [read, if_neg notBlank, if_neg notHash, if_pos isStart,
    takeWhile_append_of_stop areParts stops]

theorem wordToken_keyword (word : Keyword) : wordToken word.text = .keyword word := by
  cases word <;> rfl

theorem wordToken_identifier {name : String}
    (isName : LexemeKind.identifier.Claims name.toList) : wordToken name = .identifier name := by
  rcases denotes_word isName.isMatch with ⟨kind, claims, denotes⟩
  cases claims.unique isName
  rw [String.ofList_toList] at denotes
  generalize wordToken name = token at denotes
  cases denotes with
  | identifier => rw [String.ofList_toList]

end Lexeme

theorem Token.Spells.word {word more : List Char} {tokens : List Token}
    (isWord : word ∈ LexemeKind.identifier.pattern) (separated : Separated more)
    (spells : Spells more tokens) :
    Spells (word ++ more) (Lexeme.wordToken (String.ofList word) :: tokens) := by
  rcases Pattern.mem_run.mp isWord with ⟨first, rest, isStart, areParts, rfl⟩
  have reads := Lexeme.read_word (Pattern.isWordStart_iff.mpr isStart)
    (fun next member => Pattern.isWordPart_iff.mpr (areParts next member))
    separated.not_isWordPart
  exact spells.lexeme reads rfl

/-! ## Strings -/

theorem Token.Spells.literal (items : List StringItem) {more : List Char} {tokens : List Token}
    (spells : Spells more tokens) :
    Spells ((StringItem.literal items).toList ++ more)
      (.string (StringItem.content items) :: tokens) := by
  have whole : (StringItem.literal items).toList ++ more =
      '"' :: (StringItem.body items ++ '"' :: more) := by
    rw [StringItem.toList_literal, List.cons_append, List.append_assoc]
    rfl
  rw [whole]
  exact spells.lexeme (Lexeme.read_literal items more) whole.symm

/-- A text without quotes and backslashes stands for itself between quotes. -/
theorem StringItem.exists_verbatim {chars : List Char} (noQuote : '"' ∉ chars)
    (noBackslash : '\\' ∉ chars) :
    ∃ items : List StringItem, body items = chars ∧ items.flatMap meant = chars := by
  induction chars with
  | nil => exact ⟨[], rfl, rfl⟩
  | cons char chars ih =>
      rw [List.mem_cons, not_or] at noQuote noBackslash
      rcases ih noQuote.2 noBackslash.2 with ⟨items, isBody, isMeant⟩
      refine ⟨.plain char ⟨Ne.symm noQuote.1, Ne.symm noBackslash.1⟩ :: items, ?_, ?_⟩
      · exact congrArg (char :: ·) isBody
      · exact congrArg (char :: ·) isMeant

/-! ## Tokens -/

namespace Token

/--
The text of the token says what it is: a float is left out, an integer has no sign, a string holds
nothing that would have to be escaped, and an identifier is one and is no keyword.
-/
def Legible : Token → Prop
  | .keyword _ | .symbol _ => True
  | .int value => 0 ≤ value.toInt
  | .float _ => False
  | .string value => '"' ∉ value.toList ∧ '\\' ∉ value.toList
  | .identifier name => LexemeKind.identifier.Claims name.toList

namespace Spells

/-- A legible token in front of a blank, or at the end, is read off its text. -/
theorem shown {token : Token} (legible : token.Legible) {more : List Char} {tokens : List Token}
    (separated : Separated more) (spells : Spells more tokens) :
    Spells (token.text.toList ++ more) (token :: tokens) := by
  cases token with
  | keyword word =>
      have spelled := spells.word (LexemeKind.keyword_mem_identifier word) separated
      rw [String.ofList_toList, Lexeme.wordToken_keyword] at spelled
      rw [text, word.display_eq_text]
      exact spelled
  | symbol mark =>
      rw [text, mark.display_eq_text]
      exact spells.symbol mark fun _ => separated.head?_ne_equal
  | int value => exact spells.nonnegative legible separated.endsAt
  | float value => exact absurd legible id
  | string value =>
      rcases StringItem.exists_verbatim legible.1 legible.2 with ⟨items, isBody, isMeant⟩
      have shown : (text (.string value)).toList = (StringItem.literal items).toList := by
        rw [StringItem.toList_literal, isBody, text, String.toList_append, String.toList_append]
        rfl
      have same : StringItem.content items = value := by
        rw [StringItem.content, isMeant, String.ofList_toList]
      rw [shown, ← same]
      exact spells.literal items
  | identifier name =>
      have spelled := spells.word legible.isMatch separated
      rw [String.ofList_toList, Lexeme.wordToken_identifier legible] at spelled
      exact spelled

/-- Legible tokens with single blanks between them are read off the whole text. -/
theorem spaced {tokens : List Token} (legible : ∀ token ∈ tokens, token.Legible) :
    Spells (" ".intercalate (tokens.map text)).toList tokens := by
  induction tokens with
  | nil => exact nil
  | cons token tokens ih =>
      rw [List.forall_mem_cons] at legible
      cases tokens with
      | nil =>
          have spelled := shown legible.1 .nil nil
          rw [List.append_nil] at spelled
          rw [List.map_singleton, String.intercalate_singleton]
          exact spelled
      | cons next others =>
          have behind := (ih legible.2).blank
          have spelled := shown legible.1 (.blank _) behind
          rw [List.map_cons, List.map_cons, String.intercalate_cons_cons, String.toList_append,
            String.toList_append, List.append_assoc]
          exact spelled

end Spells

/-- Legible tokens that are shown with single blanks between them are scanned as they were. -/
theorem scan_spaced {tokens : List Token} (legible : ∀ token ∈ tokens, token.Legible) :
    (scan (" ".intercalate (tokens.map text))).map TokenStream.spelling = .ok tokens := by
  rcases (Spells.spaced legible).scan with ⟨cut, scans, rfl⟩
  rw [scans]
  rfl

/-- Marks that would join without a blank, a string with a comment in it, and a keyword in a name. -/
def crowd : List Token :=
  [.int 1, .symbol .dotPlus, .symbol .equal, .symbol .equal, .string "# é\n\t1", .identifier "iffy",
    .keyword .«if», .int 9223372036854775807]

theorem crowd_legible : ∀ token ∈ crowd, token.Legible := by
  have isName : LexemeKind.identifier.Claims "iffy".toList := by
    refine ⟨Pattern.mem_run.mpr ⟨'i', ['f', 'f', 'y'], ?_, ?_, rfl⟩, ?_⟩
    · exact Pattern.isWordStart_iff.mp rfl
    · intro next member
      apply Pattern.isWordPart_iff.mp
      exact List.all_eq_true.mp (show ['f', 'f', 'y'].all Lexeme.isWordPart = true from rfl) next
        member
    · intro _ word isKeyword
      rw [LexemeKind.pattern, Pattern.mem_literal] at isKeyword
      cases word <;> cases isKeyword
  have one : 0 ≤ (1 : Int64).toInt := by decide
  have greatest : 0 ≤ (9223372036854775807 : Int64).toInt := by decide
  have verbatim : '"' ∉ "# é\n\t1".toList ∧ '\\' ∉ "# é\n\t1".toList := by decide
  simp only [crowd, List.forall_mem_cons]
  exact ⟨one, trivial, trivial, trivial, verbatim, isName, trivial, greatest, by simp⟩

theorem scan_spaced_crowd :
    (∀ token ∈ crowd, token.Legible) ∧
    " ".intercalate (crowd.map text) = "1 .+ = = \"# é\n\t1\" iffy if 9223372036854775807" ∧
    (scan (" ".intercalate (crowd.map text))).map TokenStream.spelling = .ok crowd :=
  ⟨crowd_legible, by decide +kernel, scan_spaced crowd_legible⟩

end Token

end MatrixScript
