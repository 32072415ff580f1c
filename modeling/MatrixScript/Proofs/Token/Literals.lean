import MatrixScript.Proofs.Token.Patterns

/-!
# Numbers and strings as patterns

A text that matches the pattern of a number is a `Numeral` that is spelled out.  The reader of
numbers takes whatever number stands at the head of a text, and takes it whole:
`Numeral.Spelled.isPrefix_read` says that no number at the head of a text is longer, and
`Numeral.Spelled.read_chars` that the characters of a number tell its parts.

A string ends at the first quote that is not escaped: `StringTail.read_eq_closed_iff`.
-/

namespace MatrixScript

open Pattern

open scoped Computability

/-! ## Numbers -/

namespace ExponentPart

variable {part : ExponentPart}

theorem mem_exponent {text : List Char} :
    text ∈ Pattern.exponent ↔ ∃ part : ExponentPart, part.Spelled ∧ part.chars = text := by
  constructor
  · rintro ⟨_, ⟨letter, isLetter, rfl⟩, _, ⟨sign, isSign, digits, isDigits, rfl⟩, rfl⟩
    exact ⟨⟨letter, sign, digits⟩, ⟨isLetter, isSign, isDigits⟩, rfl⟩
  · rintro ⟨⟨letter, sign, digits⟩, ⟨isLetter, isSign, isDigits⟩, rfl⟩
    exact ⟨[letter], ⟨letter, isLetter, rfl⟩, _, ⟨sign, isSign, digits, isDigits, rfl⟩, rfl⟩

theorem readSign_mem_sign (input : List Char) : readSign input ∈ Pattern.sign := by
  fun_cases readSign input with
  | case1 => exact mem_sign.mpr (.inl rfl)
  | case2 => exact mem_sign.mpr (.inr (.inl rfl))
  | case3 => exact mem_sign.mpr (.inr (.inr rfl))

theorem spelled_of_read? {input : List Char} (reads : read? input = some part) :
    part.Spelled := by
  cases input with
  | nil => cases reads
  | cons letter rest =>
      simp only [read?] at reads
      split at reads
      · rename_i valid
        cases reads
        refine ⟨List.mem_pair.mpr valid.1, readSign_mem_sign rest, mem_digits.mpr ⟨valid.2, ?_⟩⟩
        exact fun digit => List.mem_takeWhile_imp
      · cases reads

namespace Spelled

/-- A sign in front of digits is all that is read as a sign. -/
theorem readSign_append (spelled : part.Spelled) (tail : List Char) :
    readSign (part.sign ++ (part.digits ++ tail)) = part.sign := by
  rcases mem_sign.mp spelled.sign with plus | minus | missing
  · rw [plus]
    rfl
  · rw [minus]
    rfl
  · rcases mem_digits.mp spelled.digits with ⟨nonempty, allDigits⟩
    rw [missing, List.nil_append]
    cases digits : part.digits with
    | nil => exact absurd digits nonempty
    | cons first rest =>
        rw [digits] at allDigits
        have digit := allDigits first List.mem_cons_self
        rw [List.cons_append]
        unfold readSign
        split
        · rename_i isPlus
          cases isPlus
          cases digit
        · rename_i isMinus
          cases isMinus
          cases digit
        · rfl

/-- The exponent at the head of a text goes on as far as there are digits. -/
theorem read?_append (spelled : part.Spelled) (tail : List Char) :
    read? (part.chars ++ tail) =
      some ⟨part.letter, part.sign, part.digits ++ tail.takeWhile Char.isDigit⟩ := by
  rcases mem_digits.mp spelled.digits with ⟨nonempty, allDigits⟩
  have isLetter : part.letter = 'e' ∨ part.letter = 'E' := List.mem_pair.mp spelled.letter
  have digits : (part.digits ++ tail).takeWhile Char.isDigit =
      part.digits ++ tail.takeWhile Char.isDigit :=
    List.takeWhile_append_of_pos allDigits
  have some : part.digits ++ tail.takeWhile Char.isDigit ≠ [] :=
    List.append_ne_nil_of_left_ne_nil nonempty _
  simp only [chars, List.cons_append, List.append_assoc, read?, spelled.readSign_append,
    List.drop_left, digits]
  rw [if_pos ⟨isLetter, some⟩]

end Spelled

end ExponentPart

namespace Numeral

variable {numeral : Numeral}

theorem chars_whole (whole : List Char) : chars ⟨whole, none, none⟩ = whole := by
  simp [chars, fractionChars]

theorem mem_int {text : List Char} : text ∈ LexemeKind.int.pattern ↔
    ∃ numeral : Numeral, numeral.Spelled ∧ numeral.IsWhole ∧ numeral.chars = text := by
  constructor
  · intro isDigits
    exact ⟨⟨text, none, none⟩, ⟨isDigits, by simp, by simp⟩, ⟨rfl, rfl⟩, chars_whole text⟩
  · rintro ⟨⟨whole, _, _⟩, spelled, ⟨rfl, rfl⟩, rfl⟩
    rw [chars_whole]
    exact spelled.whole

theorem mem_float {text : List Char} : text ∈ LexemeKind.float.pattern ↔
    ∃ numeral : Numeral, numeral.Spelled ∧ ¬ numeral.IsWhole ∧ numeral.chars = text := by
  constructor
  · rintro (⟨whole, isWhole, _, ⟨_, rfl, _, ⟨fraction, isFraction, _, isPower, rfl⟩, rfl⟩, rfl⟩ |
      ⟨whole, isWhole, _, isPower, rfl⟩)
    · have allDigits : ∀ digits ∈ some fraction, digits ∈ Pattern.digits := by
        rintro _ ⟨⟩
        exact isFraction
      rcases isPower with isPower | isNil
      · rcases ExponentPart.mem_exponent.mp isPower with ⟨part, spelled, rfl⟩
        exact ⟨⟨whole, some fraction, some part⟩,
          ⟨isWhole, allDigits, by simpa using spelled⟩, by simp [IsWhole],
          by simp [chars, fractionChars]⟩
      · cases isNil
        exact ⟨⟨whole, some fraction, none⟩, ⟨isWhole, allDigits, by simp⟩,
          by simp [IsWhole], by simp [chars, fractionChars]⟩
    · rcases ExponentPart.mem_exponent.mp isPower with ⟨part, spelled, rfl⟩
      exact ⟨⟨whole, none, some part⟩, ⟨isWhole, by simp, by simpa using spelled⟩,
        by simp [IsWhole], by simp [chars, fractionChars]⟩
  · rintro ⟨⟨whole, fraction, part⟩, ⟨isWhole, isFraction, isPower⟩, notWhole, rfl⟩
    have power (part : ExponentPart) (spelled : part.Spelled) : part.chars ∈ Pattern.exponent :=
      ExponentPart.mem_exponent.mpr ⟨part, spelled, rfl⟩
    rcases fraction with _ | fraction
    · rcases part with _ | part
      · exact absurd ⟨rfl, rfl⟩ notWhole
      · refine .inr ⟨whole, isWhole, _, power part (isPower part rfl), ?_⟩
        simp [chars, fractionChars]
    · refine .inl ⟨whole, isWhole, _, ⟨['.'], rfl, _, ⟨fraction, isFraction fraction rfl,
        (part.map ExponentPart.chars).getD [], ?_, rfl⟩, rfl⟩, ?_⟩
      · rcases part with _ | part
        · exact .inr rfl
        · exact .inl (power part (isPower part rfl))
      · simp [chars, fractionChars]

/-- The number at the head of a text that begins with a digit is spelled out. -/
theorem read_spelled {first : Char} {rest : List Char} (digit : first.isDigit = true) :
    (read (first :: rest)).Spelled := by
  refine ⟨mem_digits.mpr ⟨?_, fun digit => List.mem_takeWhile_imp⟩, ?_, ?_⟩
  · simp [read, digit]
  · intro digits isFraction
    simp only [read, readFraction?] at isFraction
    split at isFraction
    · split at isFraction
      · cases isFraction
      · rename_i nonempty
        cases isFraction
        exact mem_digits.mpr ⟨nonempty, fun digit => List.mem_takeWhile_imp⟩
    · cases isFraction
  · exact fun part isPower => ExponentPart.spelled_of_read? isPower

namespace Spelled

/-- Digits in front of something else are the whole part of a number. -/
theorem read_eq {whole rest : List Char} (isWhole : whole ∈ Pattern.digits)
    (stops : rest.takeWhile Char.isDigit = []) :
    read (whole ++ rest) = ⟨whole, readFraction? rest,
      ExponentPart.read? (rest.drop (fractionChars (readFraction? rest)).length)⟩ := by
  have taken : (whole ++ rest).takeWhile Char.isDigit = whole := by
    rw [List.takeWhile_append_of_pos (mem_digits.mp isWhole).2, stops, List.append_nil]
  simp only [read, taken, List.drop_left]

theorem readFraction?_append {digits : List Char} (isDigits : digits ∈ Pattern.digits)
    (tail : List Char) :
    readFraction? ('.' :: (digits ++ tail)) = some (digits ++ tail.takeWhile Char.isDigit) := by
  rcases mem_digits.mp isDigits with ⟨nonempty, allDigits⟩
  simp only [readFraction?, List.takeWhile_append_of_pos allDigits]
  rw [if_neg (List.append_ne_nil_of_left_ne_nil nonempty _)]

/-- Behind its exponent a number goes on with further digits of the exponent. -/
theorem read_of_exponent {whole : List Char} {fraction : Option (List Char)} {part : ExponentPart}
    (spelled : Spelled ⟨whole, fraction, some part⟩) (tail : List Char) :
    read (chars ⟨whole, fraction, some part⟩ ++ tail) = ⟨whole, fraction,
      some ⟨part.letter, part.sign, part.digits ++ tail.takeWhile Char.isDigit⟩⟩ := by
  have power := spelled.exponent part rfl
  have stops : (part.chars ++ tail).takeWhile Char.isDigit = [] := by
    rcases List.mem_pair.mp power.letter with isLetter | isLetter <;>
      simp [ExponentPart.chars, isLetter]
  have notPoint : readFraction? (part.chars ++ tail) = none := by
    rcases List.mem_pair.mp power.letter with isLetter | isLetter <;>
      simp [ExponentPart.chars, isLetter, readFraction?]
  rcases fraction with _ | digits
  · have split : chars ⟨whole, none, some part⟩ ++ tail = whole ++ (part.chars ++ tail) := by
      simp [chars, fractionChars]
    rw [split, read_eq spelled.whole stops, notPoint]
    simp only [fractionChars, List.length_nil, List.drop_zero, power.read?_append]
  · have split : chars ⟨whole, some digits, some part⟩ ++ tail =
        whole ++ '.' :: (digits ++ (part.chars ++ tail)) := by
      simp [chars, fractionChars]
    have isFraction : readFraction? ('.' :: (digits ++ (part.chars ++ tail))) = some digits := by
      rw [readFraction?_append (spelled.fraction digits rfl), stops, List.append_nil]
    rw [split, read_eq spelled.whole (by simp), isFraction]
    simp only [fractionChars, List.length_cons, List.drop_succ_cons, List.drop_left,
      power.read?_append]

/-- Behind its fraction a number goes on with further digits, and perhaps with an exponent. -/
theorem read_of_fraction {whole digits : List Char} (spelled : Spelled ⟨whole, some digits, none⟩)
    (tail : List Char) :
    read (chars ⟨whole, some digits, none⟩ ++ tail) =
      ⟨whole, some (digits ++ tail.takeWhile Char.isDigit),
        ExponentPart.read? (tail.drop (tail.takeWhile Char.isDigit).length)⟩ := by
  have split : chars ⟨whole, some digits, none⟩ ++ tail = whole ++ '.' :: (digits ++ tail) := by
    simp [chars, fractionChars]
  rw [split, read_eq spelled.whole (by simp), readFraction?_append (spelled.fraction digits rfl)]
  simp only [fractionChars, List.length_cons, List.drop_succ_cons, List.length_append,
    List.drop_length_add_append]

/-- No number at the head of a text is longer than the one that is read. -/
theorem isPrefix_read (spelled : numeral.Spelled) (tail : List Char) :
    numeral.chars <+: (read (numeral.chars ++ tail)).chars := by
  -- Only the last part of the number can go on in the tail.
  rcases numeral with ⟨whole, fraction, _ | part⟩
  · rcases fraction with _ | digits
    · rw [chars_whole, chars, read, List.takeWhile_append_of_pos (mem_digits.mp spelled.whole).2,
        List.append_assoc, List.append_assoc]
      exact List.prefix_append _ _
    · rw [spelled.read_of_fraction]
      simp [chars, fractionChars]
  · rw [spelled.read_of_exponent]
    simp [chars, ExponentPart.chars]

/-- The parts of a number can be told from its characters. -/
theorem read_chars (spelled : numeral.Spelled) : read numeral.chars = numeral := by
  rw [← List.append_nil numeral.chars]
  rcases numeral with ⟨whole, fraction, _ | part⟩
  · rcases fraction with _ | digits
    · rw [chars_whole, read_eq spelled.whole rfl]
      rfl
    · rw [spelled.read_of_fraction]
      simp [ExponentPart.read?]
  · rw [spelled.read_of_exponent]
    simp

end Spelled

end Numeral

/-! ## Strings -/

namespace StringTail

theorem mem_string {text : List Char} : text ∈ LexemeKind.string.pattern ↔
    ∃ body ∈ stringPart∗, text = '"' :: (body ++ ['"']) := by
  constructor
  · rintro ⟨_, rfl, _, ⟨body, inString, _, rfl, rfl⟩, rfl⟩
    exact ⟨body, inString, rfl⟩
  · rintro ⟨body, inString, rfl⟩
    exact ⟨['"'], rfl, _, ⟨body, inString, ['"'], rfl, rfl⟩, rfl⟩

theorem append_mem_body {part body : List Char} (isPart : part ∈ stringPart)
    (inString : body ∈ stringPart∗) : part ++ body ∈ stringPart∗ := by
  rcases inString with ⟨parts, rfl, areParts⟩
  exact ⟨part :: parts, rfl, List.forall_mem_cons.mpr ⟨isPart, areParts⟩⟩

/-- What is read up to a closing quote consists of ordinary characters and escapes. -/
theorem mem_body_of_closed {input body : List Char} (closes : read input = .closed body) :
    body ∈ stringPart∗ := by
  fun_induction read input generalizing body with
  | case1 => cases closes
  | case2 rest =>
      cases closes
      exact Language.nil_mem_kstar _
  | case3 => cases closes
  | case4 rest => cases closes
  | case5 escaped rest notBreak ih =>
      cases tail : read rest with
      | closed inner =>
          rw [tail] at closes
          cases closes
          have isPart : ['\\', escaped] ∈ stringPart :=
            .inr ⟨['\\'], rfl, [escaped], ⟨escaped, notBreak, rfl⟩, rfl⟩
          exact append_mem_body isPart (ih tail)
      | unclosed inner =>
          rw [tail] at closes
          cases closes
  | case6 char rest notQuote notLone notEscape ih =>
      cases tail : read rest with
      | closed inner =>
          rw [tail] at closes
          cases closes
          have notBackslash : char ≠ '\\' := by
            intro isBackslash
            cases rest with
            | nil => exact notLone isBackslash rfl
            | cons escaped rest => exact notEscape escaped rest isBackslash rfl
          have isPart : [char] ∈ stringPart :=
            .inl ⟨char, by simpa using ⟨notQuote, notBackslash⟩, rfl⟩
          exact append_mem_body isPart (ih tail)
      | unclosed inner =>
          rw [tail] at closes
          cases closes

theorem read_part {part : List Char} (isPart : part ∈ stringPart) (rest : List Char) :
    read (part ++ rest) = prepend part (read rest) := by
  rcases isPart with ⟨char, plain, rfl⟩ | ⟨_, rfl, _, ⟨escaped, notBreak, rfl⟩, rfl⟩
  · have notQuote : char ≠ '"' := fun isQuote => plain (by simp [isQuote])
    have notBackslash : char ≠ '\\' := fun isBackslash => plain (by simp [isBackslash])
    show read (char :: rest) = _
    rw [read]
    · exact notQuote
    · exact fun isBackslash _ => notBackslash isBackslash
    · exact fun _ _ isBackslash _ => notBackslash isBackslash
  · show read ('\\' :: escaped :: rest) = _
    rw [read, if_neg notBreak]
    rfl

theorem read_append {body : List Char} (inString : body ∈ stringPart∗) (tail : List Char) :
    read (body ++ '"' :: tail) = .closed body := by
  rcases inString with ⟨parts, rfl, areParts⟩
  induction parts with
  | nil => rfl
  | cons part parts ih =>
      rcases List.forall_mem_cons.mp areParts with ⟨isPart, areParts⟩
      rw [List.flatten_cons, List.append_assoc, read_part isPart, ih areParts]
      rfl

/-- The first quote that is not escaped closes a string. -/
theorem read_eq_closed_iff {input body : List Char} :
    read input = .closed body ↔ body ∈ stringPart∗ ∧ body ++ ['"'] <+: input := by
  constructor
  · exact fun closes => ⟨mem_body_of_closed closes, closed_isPrefix closes⟩
  · rintro ⟨inString, tail, rfl⟩
    rw [List.append_assoc]
    exact read_append inString tail

end StringTail

end MatrixScript
