import Mathlib.Computability.Language
import Mathlib.Data.List.TakeWhile
import MatrixScript.Proofs.Token.Spelling

/-!
# The patterns of lexemes

Which texts are lexemes is given by patterns, and a pattern is a language: the texts it matches.
`LexemeKind.pattern` lists the patterns.  `LexemeKind.Claims` settles that a keyword is no
identifier, and `LexemeKind.Denotes` gives the tokens of the texts of each kind.
-/

namespace MatrixScript

open scoped Computability

/-! ## Building patterns -/

namespace Pattern

/-- One character of a class. -/
def char (isMember : Char → Prop) : Language Char :=
  {text | ∃ char, isMember char ∧ text = [char]}

/-- One text only. -/
def literal (text : String) : Language Char :=
  {text.toList}

/-- The pattern once or more often. -/
def many (pattern : Language Char) : Language Char :=
  pattern * pattern∗

/-- The pattern or nothing. -/
def optional (pattern : Language Char) : Language Char :=
  pattern + 1

def IsDigit (char : Char) : Prop :=
  '0' ≤ char ∧ char ≤ '9'

def IsLetter (char : Char) : Prop :=
  ('a' ≤ char ∧ char ≤ 'z') ∨ ('A' ≤ char ∧ char ≤ 'Z')

/-- Decimal digits, at least one. -/
def digits : Language Char :=
  many (char IsDigit)

/-- A sign, which may be missing. -/
def sign : Language Char :=
  optional (char (· ∈ ['+', '-']))

/-- The power of ten behind a number. -/
def exponent : Language Char :=
  char (· ∈ ['e', 'E']) * (sign * digits)

/-- A character of a string: an ordinary one, or a backslash and what it escapes. -/
def stringPart : Language Char :=
  char (· ∉ ['"', '\\']) + literal "\\" * char (· ≠ '\n')

variable {isMember isHead isPart : Char → Prop} {text : List Char}

theorem mem_literal {expected : String} : text ∈ literal expected ↔ text = expected.toList :=
  Iff.rfl

theorem mem_sign : text ∈ sign ↔ text = ['+'] ∨ text = ['-'] ∨ text = [] := by
  constructor
  · rintro (⟨char, isSign, rfl⟩ | isNil)
    · rcases List.mem_pair.mp isSign with rfl | rfl
      · exact .inl rfl
      · exact .inr (.inl rfl)
    · exact .inr (.inr isNil)
  · rintro (rfl | rfl | rfl)
    · exact .inl ⟨'+', by decide, rfl⟩
    · exact .inl ⟨'-', by decide, rfl⟩
    · exact .inr rfl

theorem mem_char_kstar : text ∈ (char isMember)∗ ↔ ∀ char ∈ text, isMember char := by
  constructor
  · rintro ⟨pieces, rfl, all⟩ char member
    rcases List.mem_flatten.mp member with ⟨piece, isPiece, inside⟩
    rcases all piece isPiece with ⟨only, isMember, rfl⟩
    cases List.mem_singleton.mp inside
    exact isMember
  · intro all
    refine ⟨text.map fun char => [char], ?_, ?_⟩
    · rw [← List.flatMap_def, List.flatMap_singleton']
    · intro piece isPiece
      rcases List.mem_map.mp isPiece with ⟨char, inside, rfl⟩
      exact ⟨char, all char inside, rfl⟩

/-- A run: a character of one class, and then characters of another. -/
theorem mem_run : text ∈ char isHead * (char isPart)∗ ↔
    ∃ first rest, isHead first ∧ (∀ char ∈ rest, isPart char) ∧ text = first :: rest := by
  constructor
  · rintro ⟨_, ⟨first, isFirst, rfl⟩, rest, inRun, rfl⟩
    exact ⟨first, rest, isFirst, mem_char_kstar.mp inRun, rfl⟩
  · rintro ⟨first, rest, isFirst, inRun, rfl⟩
    exact ⟨[first], ⟨first, isFirst, rfl⟩, rest, mem_char_kstar.mpr inRun, rfl⟩

/-- The longest run at the head of a text matches. -/
theorem takeWhile_mem (pattern : Language Char) {part : Char → Bool} {first : Char}
    (isRun : pattern = char isHead * (char isPart)∗)
    (isClass : ∀ {char}, part char = true ↔ isPart char) (isFirst : isHead first)
    (rest : List Char) : first :: rest.takeWhile part ∈ pattern := by
  rw [isRun]
  exact mem_run.mpr
    ⟨first, _, isFirst, fun _ member => isClass.mp (List.mem_takeWhile_imp member), rfl⟩

theorem isDigit_iff {char : Char} : char.isDigit = true ↔ IsDigit char := by
  simp [Char.isDigit, IsDigit, Char.le_def]

theorem isAlpha_iff {char : Char} : char.isAlpha = true ↔ IsLetter char := by
  have upper : char.isUpper = true ↔ 'A' ≤ char ∧ char ≤ 'Z' := decide_eq_true_iff
  have lower : char.isLower = true ↔ 'a' ≤ char ∧ char ≤ 'z' :=
    Bool.and_eq_true_iff.trans (and_congr decide_eq_true_iff decide_eq_true_iff)
  show (char.isUpper || char.isLower) = true ↔ IsLetter char
  rw [Bool.or_eq_true, upper, lower]
  exact Or.comm

theorem isWordStart_iff {char : Char} :
    Lexeme.isWordStart char = true ↔ IsLetter char ∨ char = '_' := by
  simp [Lexeme.isWordStart, isAlpha_iff]

theorem isWordPart_iff {char : Char} :
    Lexeme.isWordPart char = true ↔ IsLetter char ∨ IsDigit char ∨ char = '_' := by
  simp [Lexeme.isWordPart, Char.isAlphanum, isAlpha_iff, isDigit_iff, or_assoc]

theorem mem_digits : text ∈ digits ↔ text ≠ [] ∧ ∀ digit ∈ text, digit.isDigit = true := by
  refine mem_run.trans ?_
  simp only [isDigit_iff]
  cases text with
  | nil => simp
  | cons first rest => simp

end Pattern

/-! ## Numbers -/

/-- The parts of an exponent are what they are called. -/
structure ExponentPart.Spelled (part : ExponentPart) : Prop where
  letter : part.letter ∈ ['e', 'E']
  sign : part.sign ∈ Pattern.sign
  digits : part.digits ∈ Pattern.digits

/-- The parts of a number are what they are called. -/
structure Numeral.Spelled (numeral : Numeral) : Prop where
  whole : numeral.whole ∈ Pattern.digits
  fraction : ∀ digits ∈ numeral.fraction, digits ∈ Pattern.digits
  exponent : ∀ part ∈ numeral.exponent, part.Spelled

/-- The number has neither fraction nor exponent. -/
def Numeral.IsWhole (numeral : Numeral) : Prop :=
  numeral.fraction = none ∧ numeral.exponent = none

/-! ## The kinds of lexemes -/

/-- What a lexeme can be. -/
inductive LexemeKind where
  | blank
  | comment
  | keyword (word : Keyword)
  | float
  | int
  | string
  | identifier
  | symbol (mark : Symbol)

namespace LexemeKind

open Pattern

/-- The texts of a kind. -/
def pattern : LexemeKind → Language Char
  | .blank => many (char (· ∈ [' ', '\t', '\n', '\r']))
  | .comment => char (· = '#') * (char (· ≠ '\n'))∗
  | .keyword word => literal word.text
  | .float => digits * (literal "." * (digits * optional exponent)) + digits * exponent
  | .int => digits
  | .string => literal "\"" * (stringPart∗ * literal "\"")
  | .identifier =>
      char (fun first => IsLetter first ∨ first = '_') *
        (char fun next => IsLetter next ∨ IsDigit next ∨ next = '_')∗
  | .symbol mark => literal mark.text

/-- The text is of the kind; a text that is a keyword is no identifier. -/
structure Claims (kind : LexemeKind) (text : List Char) : Prop where
  isMatch : text ∈ kind.pattern
  notKeyword : kind = .identifier → ∀ word, text ∉ pattern (.keyword word)

/-- The token of a text of the kind, where blanks and comments have none. -/
inductive Denotes : LexemeKind → List Char → Option Token → Prop where
  | blank (text : List Char) : Denotes .blank text none
  | comment (text : List Char) : Denotes .comment text none
  | keyword (word : Keyword) (text : List Char) :
      Denotes (.keyword word) text (some (.keyword word))
  | float {numeral : Numeral} (spelled : numeral.Spelled) :
      Denotes .float numeral.chars (some (.float numeral.decimal.toFloat))
  | int {text : List Char} {value : Int64} (isValue : value.toInt = Decimal.natural text) :
      Denotes .int text (some (.int value))
  | string (body : List Char) :
      Denotes .string ('"' :: (body ++ ['"']))
        (some (.string (String.ofList (StringTail.decode body))))
  | identifier (text : List Char) :
      Denotes .identifier text (some (.identifier (String.ofList text)))
  | symbol (mark : Symbol) (text : List Char) :
      Denotes (.symbol mark) text (some (.symbol mark))

theorem Claims.of_mem {kind : LexemeKind} {text : List Char} (isMatch : text ∈ kind.pattern)
    (notIdentifier : kind ≠ .identifier) : kind.Claims text :=
  ⟨isMatch, fun isIdentifier => absurd isIdentifier notIdentifier⟩

end LexemeKind

end MatrixScript
