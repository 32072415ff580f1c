import MatrixScript.Proofs.Token.Positions

/-!
# Where scanning goes wrong

A span fits a text if it takes up some of it and knows its line.  The spans of tokens do, joining
two spans that do gives another (`Span.Fits.merge`), and so does the span of the characters at
which the scanner gives up: `Token.fits_of_scan_error`.
-/

namespace MatrixScript

/-- The span takes up some of the text, and is on the line behind the line breaks before it. -/
structure Span.Fits (source : String) (span : Span) : Prop where
  nonempty : span.start < span.stop
  inside : span.stop ≤ source.utf8ByteSize
  line : span.line = 1 + lineBreaksBefore source span.start

namespace Span.Fits

variable {source : String} {first second : Span}

theorem merge (firstFits : first.Fits source) (secondFits : second.Fits source) :
    (first.merge second).Fits source := by
  refine ⟨?_, ?_, ?_⟩
  · exact Nat.lt_of_le_of_lt (Nat.min_le_left _ _)
      (Nat.lt_of_lt_of_le firstFits.nonempty (Nat.le_max_left _ _))
  · exact Nat.max_le.mpr ⟨firstFits.inside, secondFits.inside⟩
  · rw [Span.merge]
    split
    · rename_i earlier
      rw [Nat.min_eq_right (Nat.le_of_lt earlier)]
      exact secondFits.line
    · rename_i notEarlier
      rw [Nat.min_eq_left (Nat.not_lt.mp notEarlier)]
      exact firstFits.line

theorem of_piece {before piece after : List Char}
    (splits : source.toList = before ++ piece ++ after) (nonempty : piece ≠ []) :
    ((Position.origin.advance before).spanOf piece).Fits source := by
  rw [Position.spanOf_advance_origin]
  refine ⟨?_, ?_, ?_⟩
  · rw [Text.byteLength_append]
    exact Nat.lt_add_of_pos_right (Text.byteLength_pos nonempty)
  · rw [← Text.byteLength_toList, splits, Text.byteLength_append _ after]
    exact Nat.le_add_right _ _
  · rw [List.append_assoc] at splits
    rw [lineBreaksBefore_byteLength splits]

end Span.Fits

theorem Token.StandsIn.fits {source : String} {token : Located Token}
    (stands : StandsIn .origin source.toList token) : token.span.Fits source :=
  ⟨stands.start_lt_stop, stands.stop_le, stands.line_eq⟩

/-! ## Characters that form no token -/

theorem StringTail.unclosed_isPrefix {input body : List Char}
    (reads : read input = .unclosed body) : body <+: input := by
  fun_induction read input generalizing body with
  | case1 =>
      cases reads
      exact List.nil_prefix
  | case2 rest => cases reads
  | case3 =>
      cases reads
      exact List.nil_prefix
  | case4 rest =>
      cases reads
      exact List.nil_prefix
  | case5 escaped rest sameLine ih =>
      cases tail : read rest with
      | closed inner =>
          rw [tail] at reads
          cases reads
      | unclosed inner =>
          rw [tail] at reads
          cases reads
          exact (List.prefix_append_right_inj ['\\', escaped]).mpr (ih tail)
  | case6 char rest notQuote notLone notEscape ih =>
      cases tail : read rest with
      | closed inner =>
          rw [tail] at reads
          cases reads
      | unclosed inner =>
          rw [tail] at reads
          cases reads
          exact (List.prefix_append_right_inj [char]).mpr (ih tail)

/-- Characters that form no token are a piece of the text at its head, and not an empty one. -/
theorem Lexeme.error_isPrefix {first : Char} {rest piece : List Char}
    (fails : read first rest = .error piece) : piece <+: first :: rest ∧ piece ≠ [] := by
  revert fails
  fun_cases read first rest with
  | case5 notBlank notHash notWord isDigit numeral isToken =>
      rintro ⟨⟩
      exact ⟨Numeral.chars_isPrefix _, Numeral.chars_ne_nil isDigit⟩
  | case7 notBlank notHash notWord notDigit isQuote body unclosed =>
      rintro ⟨⟩
      subst isQuote
      refine ⟨?_, List.cons_ne_nil _ _⟩
      exact (List.prefix_cons_inj _).mpr (StringTail.unclosed_isPrefix unclosed)
  | case9 =>
      rintro ⟨⟩
      exact ⟨(List.prefix_cons_inj first).mpr List.nil_prefix, List.cons_ne_nil _ _⟩
  | _ => rintro ⟨⟩

namespace Token

/-- The scanner gives up at a piece of the text, and reports its place. -/
theorem exists_of_scanFrom_error {position : Position} {input : List Char} {error : SourceError}
    (fails : scanFrom position 0 input = .error error) :
    ∃ before piece after, input = before ++ piece ++ after ∧ piece ≠ [] ∧
      error = .unexpectedCharacters piece ((position.advance before).spanOf piece) := by
  induction length : input.length using Nat.strongRecOn generalizing position input with
  | ind size ih =>
      cases input with
      | nil => cases fails
      | cons first rest =>
          cases reads : Lexeme.read first rest with
          | error piece =>
              rw [scanFrom, reads] at fails
              cases fails
              rcases Lexeme.error_isPrefix reads with ⟨⟨after, splits⟩, nonempty⟩
              refine ⟨[], piece, after, splits.symm, nonempty, ?_⟩
              rw [Position.advance_nil]
          | ok lexeme =>
              rcases Lexeme.read_isPrefix reads with ⟨⟨more, splits⟩, nonempty⟩
              rw [scanFrom_of_read reads splits.symm] at fails
              cases tail : scanFrom (position.advance lexeme.chars) 0 more with
              | ok tokens =>
                  rw [tail] at fails
                  cases fails
              | error later =>
                  rw [tail] at fails
                  cases fails
                  have shorter : more.length < size := by
                    have positive := List.length_pos_iff.mpr nonempty
                    rw [← length, ← splits, List.length_append]
                    omega
                  rcases ih more.length shorter tail rfl with
                    ⟨before, piece, after, rfl, isPiece, rfl⟩
                  refine ⟨lexeme.chars ++ before, piece, after, ?_, isPiece, ?_⟩
                  · rw [← splits, List.append_assoc, List.append_assoc, List.append_assoc]
                  · rw [Position.advance_append]

/-- An error of the scanner has a span, which fits the text. -/
theorem fits_of_scan_error {source : String} {error : SourceError}
    (fails : scan source = .error error) :
    ∃ span : Span, error.span? = some span ∧ span.Fits source := by
  rw [scan_eq] at fails
  rcases exists_of_scanFrom_error fails with ⟨before, piece, after, splits, nonempty, rfl⟩
  exact ⟨_, rfl, .of_piece splits nonempty⟩

end Token

end MatrixScript
