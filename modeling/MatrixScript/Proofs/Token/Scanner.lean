import MatrixScript.Token.Scanner
import MatrixScript.Proofs.Reader
import MatrixScript.Proofs.Token.LineIndex

/-!
# How a text is cut into tokens

`Lexeme.read` takes a piece off the head of a text, never an empty one.  So a text that is
scanned is cut into the pieces of its lexemes: `Token.Cuts` is this as a relation, and
`Token.scan_eq_ok_iff` says that the scanner computes it.  The scanner looks lines up in an
index; by `Token.scan_eq` it could as well count them on its way.
-/

namespace MatrixScript

open TokenStream

/-! ## Pieces at the head of a text -/

theorem append_prefix_of_drop {front back input : List Char} (starts : front <+: input)
    (goesOn : back <+: input.drop front.length) : front ++ back <+: input := by
  rcases starts with ⟨rest, rfl⟩
  rw [List.drop_left] at goesOn
  exact (List.prefix_append_right_inj front).mpr goesOn

theorem ExponentPart.chars_isPrefix {input : List Char} {part : ExponentPart}
    (reads : read? input = some part) : part.chars <+: input := by
  cases input with
  | nil => cases reads
  | cons letter rest =>
      have sign : readSign rest <+: rest := by
        unfold readSign
        split <;> simp
      simp only [read?] at reads
      split at reads
      · cases reads
        rw [chars, List.prefix_cons_inj]
        exact append_prefix_of_drop sign (List.takeWhile_prefix _)
      · cases reads

theorem Numeral.fractionChars_isPrefix (input : List Char) :
    fractionChars (readFraction? input) <+: input := by
  simp only [readFraction?]
  split
  · split
    · exact List.nil_prefix
    · rw [fractionChars, List.prefix_cons_inj]
      exact List.takeWhile_prefix _
  · exact List.nil_prefix

theorem Numeral.chars_isPrefix (input : List Char) : (read input).chars <+: input := by
  rw [chars, List.append_assoc]
  apply append_prefix_of_drop (List.takeWhile_prefix _)
  apply append_prefix_of_drop (fractionChars_isPrefix _)
  simp only [read]
  cases reads : ExponentPart.read? _ with
  | none => exact List.nil_prefix
  | some part => exact ExponentPart.chars_isPrefix reads

theorem Numeral.chars_ne_nil {first : Char} {rest : List Char} (digit : first.isDigit = true) :
    (read (first :: rest)).chars ≠ [] := by
  simp [chars, read, digit]

theorem StringTail.closed_isPrefix {input body : List Char} (reads : read input = .closed body) :
    body ++ ['"'] <+: input := by
  fun_induction read input generalizing body with
  | case1 => cases reads
  | case2 rest =>
      cases reads
      exact ⟨rest, rfl⟩
  | case3 => cases reads
  | case4 rest => cases reads
  | case5 escaped rest notBreak ih =>
      cases tail : read rest with
      | closed inner =>
          rw [tail] at reads
          cases reads
          exact (List.prefix_append_right_inj ['\\', escaped]).mpr (ih tail)
      | unclosed inner =>
          rw [tail] at reads
          cases reads
  | case6 char rest notQuote notLone notEscape ih =>
      cases tail : read rest with
      | closed inner =>
          rw [tail] at reads
          cases reads
          exact (List.prefix_append_right_inj [char]).mpr (ih tail)
      | unclosed inner =>
          rw [tail] at reads
          cases reads

theorem Symbol.text_isPrefix {input : List Char} {symbol : Symbol}
    (reads : read? input = some symbol) : symbol.text.toList <+: input := by
  have found := List.find?_some reads
  exact List.isPrefixOf_iff_prefix.mp found

theorem Symbol.text_ne_nil (symbol : Symbol) : symbol.text.toList ≠ [] := by
  cases symbol <;> decide

namespace Lexeme

theorem isSpace_iff {char : Char} :
    isSpace char = true ↔ char ∈ [' ', '\t', '\n', '\r'] := by
  simp [isSpace, or_assoc]

variable {first : Char} {rest : List Char} {lexeme : Lexeme}

/-- A lexeme is a piece of the text at its head, and not an empty one. -/
theorem read_isPrefix (reads : read first rest = .ok lexeme) :
    lexeme.chars <+: first :: rest ∧ lexeme.chars ≠ [] := by
  have run (part : Char → Bool) : first :: rest.takeWhile part <+: first :: rest :=
    (List.prefix_cons_inj first).mpr (List.takeWhile_prefix part)
  simp only [read] at reads
  split at reads
  · cases reads
    exact ⟨run _, List.cons_ne_nil _ _⟩
  · split at reads
    · cases reads
      exact ⟨run _, List.cons_ne_nil _ _⟩
    · split at reads
      · cases reads
        exact ⟨run _, List.cons_ne_nil _ _⟩
      · split at reads
        · rename_i digit
          split at reads
          · cases reads
            exact ⟨Numeral.chars_isPrefix _, Numeral.chars_ne_nil digit⟩
          · cases reads
        · split at reads
          · rename_i isQuote
            subst isQuote
            split at reads
            · rename_i body closes
              cases reads
              refine ⟨?_, List.cons_ne_nil _ _⟩
              exact (List.prefix_cons_inj _).mpr (StringTail.closed_isPrefix closes)
            · cases reads
          · split at reads
            · rename_i symbol found
              cases reads
              exact ⟨Symbol.text_isPrefix found, symbol.text_ne_nil⟩
            · cases reads

/-- The rest of a text behind its first lexeme. -/
theorem drop_of_read {first : Char} {rest more : List Char} {lexeme : Lexeme}
    (reads : read first rest = .ok lexeme) (splits : first :: rest = lexeme.chars ++ more) :
    rest.drop (lexeme.chars.length - 1) = more := by
  cases chars : lexeme.chars with
  | nil => exact absurd chars (read_isPrefix reads).2
  | cons head tail =>
      rw [chars, List.cons_append] at splits
      cases splits
      exact List.drop_left

/-- The token of a lexeme that stands at a position. -/
def located (position : Position) (lexeme : Lexeme) : List (Located Token) :=
  lexeme.token?.toList.map fun token => ⟨token, position.spanOf lexeme.chars⟩

end Lexeme

/-! ## Cutting a whole text -/

namespace Token

/-- Cut a text into tokens, and count its lines on the way. -/
def scanFrom (position : Position) (pending : Nat) :
    List Char → Except SourceError (List (Located Token))
  | [] => .ok []
  | first :: rest =>
      match pending with
      | pending + 1 => scanFrom position pending rest
      | 0 =>
          match Lexeme.read first rest with
          | .error chars => .error (.unexpectedCharacters chars (position.spanOf chars))
          | .ok lexeme =>
              match scanFrom (position.advance lexeme.chars) (lexeme.chars.length - 1) rest with
              | .error error => .error error
              | .ok tokens =>
                  match lexeme.token? with
                  | none => .ok tokens
                  | some token => .ok (⟨token, position.spanOf lexeme.chars⟩ :: tokens)

theorem scanFrom_pending (position : Position) (pending : Nat) (chars : List Char) :
    scanFrom position pending chars = scanFrom position 0 (chars.drop pending) := by
  induction chars generalizing pending with
  | nil => cases pending <;> rfl
  | cons first rest ih =>
      cases pending with
      | zero => rfl
      | succ pending =>
          rw [scanFrom, ih]
          rfl

/-- Behind a lexeme the scanner goes on with the rest of the text. -/
theorem scanFrom_of_read {position : Position} {first : Char} {rest more : List Char}
    {lexeme : Lexeme} (reads : Lexeme.read first rest = .ok lexeme)
    (splits : first :: rest = lexeme.chars ++ more) :
    scanFrom position 0 (first :: rest) =
      (scanFrom (position.advance lexeme.chars) 0 more).map (lexeme.located position ++ ·) := by
  rw [scanFrom, reads]
  dsimp only
  rw [scanFrom_pending, Lexeme.drop_of_read reads splits]
  cases scanFrom (position.advance lexeme.chars) 0 more with
  | error error => rfl
  | ok tokens =>
      rcases lexeme with ⟨chars, _ | token⟩
      · rfl
      · rfl

/-- The text at a position is cut into lexemes, and these are their tokens. -/
inductive Cuts : Position → List Char → List (Located Token) → Prop where
  | nil (position : Position) : Cuts position [] []
  | cons {position : Position} {first : Char} {rest more : List Char} {lexeme : Lexeme}
      {tokens : List (Located Token)} (reads : Lexeme.read first rest = .ok lexeme)
      (splits : first :: rest = lexeme.chars ++ more)
      (cuts : Cuts (position.advance lexeme.chars) more tokens) :
      Cuts position (first :: rest) (lexeme.located position ++ tokens)

theorem Cuts.scanFrom_eq {position : Position} {chars : List Char}
    {tokens : List (Located Token)} (cuts : Cuts position chars tokens) :
    scanFrom position 0 chars = .ok tokens := by
  induction cuts with
  | nil position => rfl
  | cons reads splits cuts ih =>
      rw [scanFrom_of_read reads splits, ih]
      rfl

theorem cuts_of_scanFrom {position : Position} {chars : List Char}
    {tokens : List (Located Token)} (scans : scanFrom position 0 chars = .ok tokens) :
    Cuts position chars tokens := by
  induction length : chars.length using Nat.strongRecOn generalizing position chars tokens with
  | ind size ih =>
      cases chars with
      | nil =>
          cases scans
          exact .nil position
      | cons first rest =>
          cases reads : Lexeme.read first rest with
          | error chars =>
              rw [scanFrom, reads] at scans
              cases scans
          | ok lexeme =>
              rcases Lexeme.read_isPrefix reads with ⟨⟨more, splits⟩, nonempty⟩
              rw [scanFrom_of_read reads splits.symm] at scans
              cases tail : scanFrom (position.advance lexeme.chars) 0 more with
              | error error =>
                  rw [tail] at scans
                  cases scans
              | ok others =>
                  rw [tail] at scans
                  cases scans
                  have shorter : more.length < size := by
                    have positive := List.length_pos_iff.mpr nonempty
                    rw [← length, ← splits, List.length_append]
                    omega
                  exact .cons reads splits.symm (ih more.length shorter tail rfl)

/-- The lines that the index gives are those counted on the way. -/
theorem scanIn_eq {source : String} {before chars : List Char} {pending : Nat}
    (splits : source.toList = before ++ chars.drop pending) :
    scanIn (.ofText source) (Text.byteLength before) pending chars =
      scanFrom (Position.origin.advance before) pending chars := by
  induction chars generalizing before pending with
  | nil => rfl
  | cons first rest ih =>
      cases pending with
      | succ pending => exact ih splits
      | zero =>
          rw [scanIn, scanFrom]
          cases reads : Lexeme.read first rest with
          | error chars =>
              dsimp only
              rw [LineIndex.spanOf_eq splits]
          | ok lexeme =>
              rcases (Lexeme.read_isPrefix reads).1 with ⟨more, continues⟩
              have behind : source.toList =
                  (before ++ lexeme.chars) ++ rest.drop (lexeme.chars.length - 1) := by
                rw [Lexeme.drop_of_read reads continues.symm, List.append_assoc, continues]
                exact splits
              have tail := ih behind
              rw [Text.byteLength_append, Position.advance_append] at tail
              dsimp only
              rw [tail]
              cases scanFrom _ _ rest with
              | error error => rfl
              | ok tokens =>
                  cases lexeme.token? with
                  | none => rfl
                  | some token =>
                      exact congrArg (fun span => Except.ok (Located.mk token span :: tokens))
                        (LineIndex.spanOf_eq splits lexeme.chars)

theorem scan_eq (source : String) : scan source = scanFrom .origin 0 source.toList := by
  have splits : source.toList = [] ++ source.toList.drop 0 := rfl
  have start := scanIn_eq splits
  rw [Position.advance_nil] at start
  exact start

/-- The scanner finds the tokens into which the text is cut. -/
theorem scan_eq_ok_iff {source : String} {tokens : List (Located Token)} :
    scan source = .ok tokens ↔ Cuts .origin source.toList tokens := by
  rw [scan_eq]
  exact ⟨cuts_of_scanFrom, Cuts.scanFrom_eq⟩

end Token

end MatrixScript
