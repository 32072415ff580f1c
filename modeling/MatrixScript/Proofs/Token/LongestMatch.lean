import MatrixScript.Proofs.Token.Literals

/-!
# The longest match at the head of a text

The first character of a text tells which patterns can match at its head, up to the choice
between a keyword and an identifier and between the two sorts of numbers
(`LexemeKind.opening_of_mem`).  So a text is a lexeme in one way at most
(`LexemeKind.Claims.unique`), and at the head of a text only the patterns of one opening compete.
Of these `Lexeme.read` takes the longest match, and it fails where there is none or where the
longest match is a number out of range: `Lexeme.taken_of_read` and `Lexeme.stuck_of_read`.
-/

namespace MatrixScript

open Pattern

open scoped Computability

/-! ## Opening characters -/

/-- What the first character of a lexeme tells about it. -/
inductive Opening where
  | blank
  | comment
  | word
  | number
  | string
  | symbol

namespace Opening

def of (first : Char) : Opening :=
  if Lexeme.isSpace first then .blank
  else if first = '#' then .comment
  else if Lexeme.isWordStart first then .word
  else if first.isDigit then .number
  else if first = '"' then .string
  else .symbol

variable {first : Char}

theorem of_isSpace (isBlank : Lexeme.isSpace first = true) : of first = .blank := by
  rw [of, if_pos isBlank]

theorem not_blank {isClass : Char → Bool} (isMember : isClass first = true)
    (without : ([' ', '\t', '\n', '\r'] ++ ['#']).any isClass = false) :
    ¬ Lexeme.isSpace first = true ∧ first ≠ '#' := by
  have outside : first ∉ [' ', '\t', '\n', '\r'] ++ ['#'] := fun inside =>
    List.any_eq_false.mp without first inside isMember
  rw [List.mem_append, List.mem_singleton, not_or] at outside
  exact ⟨Lexeme.isSpace_iff.not.mpr outside.1, outside.2⟩

theorem of_isWordStart (isWord : Lexeme.isWordStart first = true) : of first = .word := by
  rcases not_blank isWord rfl with ⟨notBlank, notHash⟩
  rw [of, if_neg notBlank, if_neg notHash, if_pos isWord]

theorem of_isDigit (isDigit : first.isDigit = true) : of first = .number := by
  rcases not_blank isDigit rfl with ⟨notBlank, notHash⟩
  have notWord : ¬ Lexeme.isWordStart first = true := by
    rw [Lexeme.isWordStart_of_isDigit isDigit]
    exact Bool.false_ne_true
  rw [of, if_neg notBlank, if_neg notHash, if_neg notWord, if_pos isDigit]

end Opening

namespace LexemeKind

def opening : LexemeKind → Opening
  | .blank => .blank
  | .comment => .comment
  | .keyword _ | .identifier => .word
  | .float | .int => .number
  | .string => .string
  | .symbol _ => .symbol

variable {kind other : LexemeKind} {text : List Char}

theorem opening_of_numeral {numeral : Numeral} (spelled : numeral.Spelled) :
    ∃ first rest, numeral.chars = first :: rest ∧ Opening.of first = .number := by
  rcases mem_digits.mp spelled.whole with ⟨nonempty, allDigits⟩
  rcases List.exists_cons_of_ne_nil nonempty with ⟨first, rest, whole⟩
  rw [whole] at allDigits
  rw [Numeral.chars, whole, List.append_assoc, List.cons_append]
  exact ⟨first, _, rfl, Opening.of_isDigit (allDigits first List.mem_cons_self)⟩

/-- The first character of a text tells the kinds it can be of. -/
theorem opening_of_mem (isMatch : text ∈ kind.pattern) :
    ∃ first rest, text = first :: rest ∧ Opening.of first = kind.opening := by
  cases kind with
  | blank =>
      rcases mem_run.mp isMatch with ⟨first, rest, isBlank, _, rfl⟩
      exact ⟨first, rest, rfl, Opening.of_isSpace (Lexeme.isSpace_iff.mpr isBlank)⟩
  | comment =>
      rcases mem_run.mp isMatch with ⟨_, rest, rfl, _, rfl⟩
      exact ⟨'#', rest, rfl, rfl⟩
  | keyword word =>
      cases mem_literal.mp isMatch
      cases word <;> exact ⟨_, _, rfl, rfl⟩
  | float =>
      rcases Numeral.mem_float.mp isMatch with ⟨numeral, spelled, _, rfl⟩
      exact opening_of_numeral spelled
  | int =>
      rcases Numeral.mem_int.mp isMatch with ⟨numeral, spelled, _, rfl⟩
      exact opening_of_numeral spelled
  | string =>
      rcases isMatch with ⟨_, rfl, rest, _, rfl⟩
      exact ⟨'"', rest, rfl, rfl⟩
  | identifier =>
      rcases mem_run.mp isMatch with ⟨first, rest, isStart, _, rfl⟩
      exact ⟨first, rest, rfl, Opening.of_isWordStart (isWordStart_iff.mpr isStart)⟩
  | symbol mark =>
      cases mem_literal.mp isMatch
      cases mark <;> exact ⟨_, _, rfl, rfl⟩

theorem opening_of_isPrefix {first : Char} {rest : List Char} (isMatch : text ∈ kind.pattern)
    (isPrefix : text <+: first :: rest) : kind.opening = Opening.of first := by
  rcases opening_of_mem isMatch with ⟨head, tail, rfl, opens⟩
  cases (List.cons_prefix_cons.mp isPrefix).1
  exact opens.symm

theorem not_mem_int_of_mem_float (isFloat : text ∈ pattern .float) : text ∉ pattern .int := by
  intro isInt
  rcases Numeral.mem_float.mp isFloat with ⟨numeral, spelled, notWhole, rfl⟩
  rcases Numeral.mem_int.mp isInt with ⟨whole, wholeSpelled, isWhole, same⟩
  rw [← wholeSpelled.read_chars, same, spelled.read_chars] at isWhole
  exact notWhole isWhole

theorem keyword_mem_identifier (word : Keyword) : word.text.toList ∈ pattern .identifier := by
  have isWord : ∃ first rest, Lexeme.isWordStart first = true ∧
      rest.all Lexeme.isWordPart = true ∧ word.text.toList = first :: rest := by
    cases word <;> exact ⟨_, _, rfl, rfl, rfl⟩
  rcases isWord with ⟨first, rest, isStart, areParts, spelled⟩
  exact mem_run.mpr ⟨first, rest, isWordStart_iff.mp isStart,
    fun next member => isWordPart_iff.mp (List.all_eq_true.mp areParts next member), spelled⟩

theorem keyword_unique {word other : Keyword} (same : word.text.toList = other.text.toList) :
    word = other := by
  have known (word : Keyword) : Keyword.ofWord? word.text = some word := by
    cases word <;> decide
  have found := known word
  rw [String.toList_inj.mp same, known other] at found
  exact (Option.some.inj found).symm

theorem symbol_unique {mark other : Symbol} (same : mark.text.toList = other.text.toList) :
    mark = other := by
  have known (mark : Symbol) : Symbol.read? (mark.text.toList ++ []) = some mark :=
    mark.read?_text fun _ => (Option.some_ne_none '=').symm
  have found := known mark
  rw [same, known other] at found
  exact (Option.some.inj found).symm

/-- A text is of one kind at most. -/
theorem Claims.unique (claims : kind.Claims text) (otherClaims : other.Claims text) :
    kind = other := by
  have opens : kind.opening = other.opening := by
    rcases opening_of_mem claims.isMatch with ⟨first, rest, rfl, opens⟩
    rw [opening_of_isPrefix otherClaims.isMatch (List.prefix_refl _), opens]
  cases kind with
  | keyword word =>
      cases other with
      | keyword otherWord =>
          cases mem_literal.mp claims.isMatch
          rw [keyword_unique (mem_literal.mp otherClaims.isMatch)]
      | identifier => exact absurd claims.isMatch (otherClaims.notKeyword rfl word)
      | _ => cases opens
  | identifier =>
      cases other with
      | keyword word => exact absurd otherClaims.isMatch (claims.notKeyword rfl word)
      | identifier => rfl
      | _ => cases opens
  | float =>
      cases other with
      | float => rfl
      | int => exact absurd otherClaims.isMatch (not_mem_int_of_mem_float claims.isMatch)
      | _ => cases opens
  | int =>
      cases other with
      | float => exact absurd claims.isMatch (not_mem_int_of_mem_float otherClaims.isMatch)
      | int => rfl
      | _ => cases opens
  | symbol mark =>
      cases other with
      | symbol otherMark =>
          cases mem_literal.mp claims.isMatch
          rw [symbol_unique (mem_literal.mp otherClaims.isMatch)]
      | _ => cases opens
  | blank => cases other <;> first | rfl | cases opens
  | comment => cases other <;> first | rfl | cases opens
  | string => cases other <;> first | rfl | cases opens

/-- A text of a kind has one token at most. -/
theorem Denotes.unique {token? other? : Option Token} (denotes : kind.Denotes text token?)
    (otherDenotes : kind.Denotes text other?) : token? = other? := by
  cases denotes with
  | @float numeral spelled =>
      generalize chars : numeral.chars = text at otherDenotes
      cases otherDenotes with
      | float otherSpelled =>
          rw [← spelled.read_chars, chars, otherSpelled.read_chars]
  | int isValue =>
      cases otherDenotes with
      | int otherValue => rw [Int64.toInt_inj.mp (isValue.trans otherValue.symm)]
  | string body =>
      generalize chars : '"' :: (body ++ ['"']) = text at otherDenotes
      cases otherDenotes with
      | string otherBody => rw [List.append_cancel_right (List.cons.inj chars).2]
  | _ =>
      cases otherDenotes
      rfl

end LexemeKind

/-! ## Longest matches -/

/-- A piece at the head of a text that matches a pattern, where no longer one does. -/
structure LongestMatch (input piece : List Char) : Prop where
  isPrefix : piece <+: input
  isMatch : ∃ kind : LexemeKind, piece ∈ kind.pattern
  longest : ∀ (kind : LexemeKind) (other : List Char), other ∈ kind.pattern → other <+: input →
    other.length ≤ piece.length

/--
No lexeme can be taken off the head of the text, although it goes on: nothing matches there, or
the longest match is a number out of range.
-/
inductive Stuck (input : List Char) : Prop where
  | unmatched (goesOn : input ≠ [])
      (without : ∀ (kind : LexemeKind) (piece : List Char), piece ∈ kind.pattern →
        ¬ piece <+: input)
  | outOfRange {digits : List Char} (longest : LongestMatch input digits)
      (isInt : digits ∈ LexemeKind.int.pattern)
      (tooLarge : Nat.pow 2 63 - 1 < Decimal.natural digits)

/-- The lexeme is the longest match at the head of the text, with the token it denotes. -/
structure Lexeme.Taken (input : List Char) (lexeme : Lexeme) : Prop where
  longest : LongestMatch input lexeme.chars
  denotes : ∃ kind : LexemeKind, kind.Claims lexeme.chars ∧
    kind.Denotes lexeme.chars lexeme.token?

variable {first : Char} {rest : List Char}

/-- Of the symbols at the head of a text the longest is read. -/
theorem Symbol.read?_longest {input : List Char} {mark other : Symbol}
    (found : read? input = some mark) (starts : other.text.toList <+: input) :
    other.text.toList.length ≤ mark.text.toList.length := by
  have descending : all.Pairwise fun first second =>
      second.text.toList.length ≤ first.text.toList.length := by decide
  -- The symbols before the one that is found do not fit, and those behind it are not longer.
  rcases List.find?_eq_some_iff_append.mp found with ⟨_, before, after, splits, missed⟩
  have member := mem_all other
  rw [splits] at descending member
  rcases List.mem_append.mp member with earlier | here
  · have apart := missed other earlier
    rw [List.isPrefixOf_iff_prefix.mpr starts] at apart
    cases apart
  · rcases List.mem_cons.mp here with rfl | later
    · exact Nat.le_refl _
    · exact (List.pairwise_cons.mp (List.pairwise_append.mp descending).2.1).1 other later

namespace LongestMatch

variable {input piece other : List Char}

theorem unique (longest : LongestMatch input piece) (otherLongest : LongestMatch input other) :
    piece = other := by
  rcases longest.isMatch with ⟨kind, isMatch⟩
  rcases otherLongest.isMatch with ⟨otherKind, otherMatch⟩
  have least := otherLongest.longest kind piece isMatch longest.isPrefix
  have most := longest.longest otherKind other otherMatch otherLongest.isPrefix
  have inside := List.prefix_of_prefix_length_le longest.isPrefix otherLongest.isPrefix least
  exact inside.eq_of_length (Nat.le_antisymm least most)

theorem ne_nil (longest : LongestMatch input piece) : piece ≠ [] := by
  rcases longest.isMatch with ⟨kind, isMatch⟩
  rcases LexemeKind.opening_of_mem isMatch with ⟨first, rest, rfl, _⟩
  exact List.cons_ne_nil first rest

/-- Only kinds with the opening of the first character compete at the head of a text. -/
theorem of_opening {kind : LexemeKind} (isPrefix : piece <+: first :: rest)
    (isMatch : piece ∈ kind.pattern)
    (longest : ∀ other : LexemeKind, other.opening = kind.opening →
      ∀ text, text ∈ other.pattern → text <+: first :: rest → text <+: piece) :
    LongestMatch (first :: rest) piece := by
  refine ⟨isPrefix, ⟨kind, isMatch⟩, fun other text otherMatch starts => ?_⟩
  have opens := LexemeKind.opening_of_isPrefix isMatch isPrefix
  have same := LexemeKind.opening_of_isPrefix otherMatch starts
  exact (longest other (same.trans opens.symm) text otherMatch starts).length_le

/-- Where all competing texts are runs of one class, the longest run is the longest match. -/
theorem run (kind : LexemeKind) {isHead isPart : Char → Prop} {part : Char → Bool}
    (isRun : kind.pattern = char isHead * (char isPart)∗)
    (isClass : ∀ {char}, part char = true ↔ isPart char) (isFirst : isHead first)
    (runs : ∀ other : LexemeKind, other.opening = kind.opening → ∀ text ∈ other.pattern,
      text ∈ kind.pattern) :
    LongestMatch (first :: rest) (first :: rest.takeWhile part) := by
  have isMatch := takeWhile_mem kind.pattern isRun isClass isFirst rest
  refine of_opening (List.cons_prefix_cons.mpr ⟨rfl, List.takeWhile_prefix _⟩) isMatch ?_
  intro other opens text otherMatch starts
  have inRun := runs other opens text otherMatch
  rw [isRun] at inRun
  rcases mem_run.mp inRun with ⟨head, tail, _, inClass, rfl⟩
  rcases List.cons_prefix_cons.mp starts with ⟨rfl, more, rfl⟩
  rw [List.takeWhile_append_of_pos fun char member => isClass.mpr (inClass char member)]
  exact List.cons_prefix_cons.mpr ⟨rfl, List.prefix_append _ _⟩

theorem blank (isBlank : Lexeme.isSpace first = true) :
    LongestMatch (first :: rest) (first :: rest.takeWhile Lexeme.isSpace) := by
  refine run .blank rfl Lexeme.isSpace_iff (Lexeme.isSpace_iff.mp isBlank) ?_
  intro other opens text otherMatch
  cases other with
  | blank => exact otherMatch
  | _ => cases opens

theorem comment : LongestMatch ('#' :: rest) ('#' :: rest.takeWhile (· ≠ '\n')) := by
  refine run .comment rfl decide_eq_true_iff rfl ?_
  intro other opens text otherMatch
  cases other with
  | comment => exact otherMatch
  | _ => cases opens

theorem word (isWord : Lexeme.isWordStart first = true) :
    LongestMatch (first :: rest) (first :: rest.takeWhile Lexeme.isWordPart) := by
  refine run .identifier rfl isWordPart_iff (isWordStart_iff.mp isWord) ?_
  intro other opens text otherMatch
  cases other with
  | identifier => exact otherMatch
  | keyword word =>
      cases mem_literal.mp otherMatch
      exact LexemeKind.keyword_mem_identifier word
  | _ => cases opens

theorem number (isDigit : first.isDigit = true) :
    LongestMatch (first :: rest) (Numeral.read (first :: rest)).chars := by
  have spelled : (Numeral.read (first :: rest)).Spelled := Numeral.read_spelled isDigit
  have isPrefix := Numeral.chars_isPrefix (first :: rest)
  have whole {numeral : Numeral} (spelled : numeral.Spelled)
      (starts : numeral.chars <+: first :: rest) :
      numeral.chars <+: (Numeral.read (first :: rest)).chars := by
    rcases starts with ⟨tail, splits⟩
    rw [← splits]
    exact spelled.isPrefix_read tail
  have longest : ∀ other : LexemeKind, other.opening = .number → ∀ text ∈ other.pattern,
      text <+: first :: rest → text <+: (Numeral.read (first :: rest)).chars := by
    intro other opens text otherMatch starts
    cases other with
    | float =>
        rcases Numeral.mem_float.mp otherMatch with ⟨numeral, otherSpelled, _, rfl⟩
        exact whole otherSpelled starts
    | int =>
        rcases Numeral.mem_int.mp otherMatch with ⟨numeral, otherSpelled, _, rfl⟩
        exact whole otherSpelled starts
    | _ => cases opens
  -- Both sorts of numbers open alike, so each competes with the other.
  by_cases isWhole : (Numeral.read (first :: rest)).IsWhole
  · have isMatch := Numeral.mem_int.mpr ⟨_, spelled, isWhole, rfl⟩
    exact of_opening isPrefix isMatch longest
  · have isMatch := Numeral.mem_float.mpr ⟨_, spelled, isWhole, rfl⟩
    exact of_opening isPrefix isMatch longest

theorem string {body : List Char} (closes : StringTail.read rest = .closed body) :
    LongestMatch ('"' :: rest) ('"' :: (body ++ ['"'])) := by
  rcases StringTail.read_eq_closed_iff.mp closes with ⟨inString, isPrefix⟩
  have isMatch := StringTail.mem_string.mpr ⟨body, inString, rfl⟩
  refine of_opening (List.cons_prefix_cons.mpr ⟨rfl, isPrefix⟩) isMatch ?_
  intro other opens text otherMatch starts
  cases other with
  | string =>
      rcases StringTail.mem_string.mp otherMatch with ⟨otherBody, otherInString, rfl⟩
      have otherCloses := StringTail.read_eq_closed_iff.mpr
        ⟨otherInString, (List.cons_prefix_cons.mp starts).2⟩
      cases closes.symm.trans otherCloses
      exact List.prefix_refl _
  | _ => cases opens

theorem symbol {mark : Symbol} (found : Symbol.read? (first :: rest) = some mark) :
    LongestMatch (first :: rest) mark.text.toList := by
  have isPrefix := Symbol.text_isPrefix found
  have isMatch : mark.text.toList ∈ LexemeKind.pattern (.symbol mark) := mem_literal.mpr rfl
  refine of_opening isPrefix isMatch ?_
  intro other opens text otherMatch starts
  cases other with
  | symbol otherMark =>
      cases mem_literal.mp otherMatch
      exact List.prefix_of_prefix_length_le starts isPrefix (Symbol.read?_longest found starts)
  | _ => cases opens

end LongestMatch

/-! ## What is read -/

namespace Numeral

variable {numeral : Numeral} {token : Token}

/-- A number that has a token has its value. -/
theorem denotes_of_token? (spelled : numeral.Spelled) (isToken : numeral.token? = some token) :
    ∃ kind : LexemeKind, kind.Claims numeral.chars ∧
      kind.Denotes numeral.chars (some token) := by
  by_cases isWhole : numeral.IsWhole
  · have isMatch := mem_int.mpr ⟨numeral, spelled, isWhole, rfl⟩
    refine ⟨.int, .of_mem isMatch (by rintro ⟨⟩), ?_⟩
    rcases numeral with ⟨whole, _, _⟩
    rcases isWhole with ⟨rfl, rfl⟩
    rw [chars_whole]
    simp only [token?] at isToken
    split at isToken
    · rename_i fits
      cases isToken
      exact .int (Int64.toInt_ofNat_of_lt fits)
    · cases isToken
  · have isMatch := mem_float.mpr ⟨numeral, spelled, isWhole, rfl⟩
    refine ⟨.float, .of_mem isMatch (by rintro ⟨⟩), ?_⟩
    unfold token? at isToken
    split at isToken
    · rename_i noFraction noExponent
      exact absurd ⟨noFraction, noExponent⟩ isWhole
    · cases isToken
      exact .float spelled

/-- Only whole numbers beyond the range have no token. -/
theorem tooLarge_of_token? (isToken : numeral.token? = none) :
    numeral.IsWhole ∧ Nat.pow 2 63 ≤ Decimal.natural numeral.chars := by
  rcases numeral with ⟨whole, fraction, exponent⟩
  unfold token? at isToken
  split at isToken
  · rename_i noFraction noExponent
    cases noFraction
    cases noExponent
    refine ⟨⟨rfl, rfl⟩, ?_⟩
    rw [chars_whole]
    by_contra small
    rw [if_pos (Nat.lt_of_not_le small)] at isToken
    cases isToken
  · cases isToken

end Numeral

namespace Lexeme

/-- A word denotes the keyword it spells, or else itself. -/
theorem denotes_word {word : List Char} (isWord : word ∈ LexemeKind.identifier.pattern) :
    ∃ kind : LexemeKind, kind.Claims word ∧
      kind.Denotes word (some (wordToken (String.ofList word))) := by
  unfold wordToken
  split
  · rename_i keyword found
    have same := List.find?_some found
    have spelled : keyword.text = String.ofList word := beq_iff_eq.mp same
    have isMatch : word ∈ LexemeKind.pattern (.keyword keyword) := by
      rw [LexemeKind.pattern, mem_literal, spelled, String.toList_ofList]
    exact ⟨.keyword keyword, .of_mem isMatch (by rintro ⟨⟩), .keyword keyword word⟩
  · rename_i missing
    refine ⟨.identifier, ⟨isWord, fun _ keyword isKeyword => ?_⟩, .identifier word⟩
    have spelled : keyword.text = String.ofList word := by
      rw [mem_literal.mp isKeyword, String.ofList_toList]
    exact List.find?_eq_none.mp missing keyword (Keyword.mem_all keyword) (beq_iff_eq.mpr spelled)

/-- The lexeme that is read is the longest match, with its token. -/
theorem taken_of_read {lexeme : Lexeme} (reads : read first rest = .ok lexeme) :
    Taken (first :: rest) lexeme := by
  revert reads
  fun_cases read first rest with
  | case1 isBlank =>
      rintro ⟨⟩
      have isMatch :=
        takeWhile_mem LexemeKind.blank.pattern rfl Lexeme.isSpace_iff
          (Lexeme.isSpace_iff.mp isBlank) rest
      exact ⟨.blank isBlank, .blank, .of_mem isMatch (by rintro ⟨⟩), .blank _⟩
  | case2 notBlank isHash =>
      rintro ⟨⟩
      subst isHash
      have isMatch := takeWhile_mem LexemeKind.comment.pattern rfl decide_eq_true_iff rfl rest
      exact ⟨.comment, .comment, .of_mem isMatch (by rintro ⟨⟩), .comment _⟩
  | case3 notBlank notHash isWord =>
      rintro ⟨⟩
      have isMatch := takeWhile_mem LexemeKind.identifier.pattern rfl isWordPart_iff
        (isWordStart_iff.mp isWord) rest
      exact ⟨.word isWord, denotes_word isMatch⟩
  | case4 notBlank notHash notWord isDigit numeral token isToken =>
      rintro ⟨⟩
      exact ⟨.number isDigit, Numeral.denotes_of_token? (Numeral.read_spelled isDigit) isToken⟩
  | case5 => rintro ⟨⟩
  | case6 notBlank notHash notWord notDigit isQuote body closes =>
      rintro ⟨⟩
      subst isQuote
      have inString := (StringTail.read_eq_closed_iff.mp closes).1
      have isMatch := StringTail.mem_string.mpr ⟨body, inString, rfl⟩
      exact ⟨.string closes, .string, .of_mem isMatch (by rintro ⟨⟩), .string body⟩
  | case7 => rintro ⟨⟩
  | case8 notBlank notHash notWord notDigit notQuote mark found =>
      rintro ⟨⟩
      exact ⟨.symbol found, .symbol mark, .of_mem (mem_literal.mpr rfl) (by rintro ⟨⟩),
        .symbol mark _⟩
  | case9 => rintro ⟨⟩

/-- Where no lexeme is read the text is stuck. -/
theorem stuck_of_read {chars : List Char} (fails : read first rest = .error chars) :
    Stuck (first :: rest) := by
  revert fails
  fun_cases read first rest with
  | case5 notBlank notHash notWord isDigit numeral isToken =>
      rintro ⟨⟩
      rcases Numeral.tooLarge_of_token? isToken with ⟨isWhole, tooLarge⟩
      have isInt := Numeral.mem_int.mpr ⟨numeral, Numeral.read_spelled isDigit, isWhole, rfl⟩
      exact .outOfRange (.number isDigit) isInt (Nat.lt_of_lt_of_le (by decide) tooLarge)
  | case7 notBlank notHash notWord notDigit isQuote body unclosed =>
      rintro ⟨⟩
      subst isQuote
      refine .unmatched (List.cons_ne_nil _ _) fun kind piece isMatch starts => ?_
      have opens := LexemeKind.opening_of_isPrefix isMatch starts
      cases kind with
      | string =>
          rcases StringTail.mem_string.mp isMatch with ⟨inner, inString, rfl⟩
          have closes := StringTail.read_eq_closed_iff.mpr
            ⟨inString, (List.cons_prefix_cons.mp starts).2⟩
          cases unclosed.symm.trans closes
      | _ => cases opens
  | case9 notBlank notHash notWord notDigit notQuote missing =>
      rintro ⟨⟩
      refine .unmatched (List.cons_ne_nil _ _) fun kind piece isMatch starts => ?_
      have opens := LexemeKind.opening_of_isPrefix isMatch starts
      rw [Opening.of, if_neg notBlank, if_neg notHash, if_neg notWord, if_neg notDigit,
        if_neg notQuote] at opens
      cases kind with
      | symbol mark =>
          cases mem_literal.mp isMatch
          exact List.find?_eq_none.mp missing mark mark.mem_all
            (List.isPrefixOf_iff_prefix.mpr starts)
      | _ => cases opens
  | _ => rintro ⟨⟩

end Lexeme

end MatrixScript
