import MatrixScript.Token
import MatrixScript.Token.LineIndex
import MatrixScript.SourceError
import MatrixScript.Decimal.Reading

/-!
# From characters to tokens

A text is cut into lexemes from left to right.  At each place the longest lexeme
that fits is taken; blanks and comments are lexemes without a token.

`Lexeme.read` finds the lexeme at the head of a text, and `Token.scan` cuts the
whole text and gives every token its span.
-/

namespace MatrixScript

/-- A piece of source text, and the token it stands for unless it is blank. -/
structure Lexeme where
  chars : List Char
  token? : Option Token
deriving DecidableEq

/-- The exponent of a number: its letter, its sign if any, and its digits. -/
structure ExponentPart where
  letter : Char
  sign : List Char
  digits : List Char
deriving DecidableEq, Repr

namespace ExponentPart

/-- The sign at the head of a text, if there is one. -/
def readSign : List Char → List Char
  | '+' :: _ => ['+']
  | '-' :: _ => ['-']
  | _ => []

/-- The exponent at the head of a text, which needs a letter and at least one digit. -/
def read? : List Char → Option ExponentPart
  | [] => none
  | letter :: rest =>
      let sign := readSign rest
      let digits := (rest.drop sign.length).takeWhile Char.isDigit
      if (letter = 'e' ∨ letter = 'E') ∧ digits ≠ [] then some ⟨letter, sign, digits⟩ else none

/-- The characters of an exponent. -/
def chars (part : ExponentPart) : List Char :=
  part.letter :: (part.sign ++ part.digits)

/-- The power of ten. -/
def value (part : ExponentPart) : Int :=
  let size : Int := Decimal.natural part.digits
  if part.sign = ['-'] then -size else size

end ExponentPart

/-- An unsigned number as it is spelled. -/
structure Numeral where
  whole : List Char
  fraction : Option (List Char)
  exponent : Option ExponentPart
deriving DecidableEq, Repr

namespace Numeral

/-- The digits behind a point at the head of a text; there must be at least one. -/
def readFraction? : List Char → Option (List Char)
  | '.' :: rest =>
      let digits := rest.takeWhile Char.isDigit
      if digits = [] then none else some digits
  | _ => none

/-- The characters of a point and the digits behind it. -/
def fractionChars : Option (List Char) → List Char
  | none => []
  | some digits => '.' :: digits

/-- The longest number at the head of a text that begins with a digit. -/
def read (input : List Char) : Numeral :=
  let whole := input.takeWhile Char.isDigit
  let rest := input.drop whole.length
  let fraction := readFraction? rest
  let exponent := ExponentPart.read? (rest.drop (fractionChars fraction).length)
  ⟨whole, fraction, exponent⟩

/-- The characters of a number. -/
def chars (numeral : Numeral) : List Char :=
  numeral.whole ++ fractionChars numeral.fraction ++
    (numeral.exponent.map ExponentPart.chars).getD []

/-- The decimal a number denotes. -/
def decimal (numeral : Numeral) : Decimal :=
  let fraction := numeral.fraction.getD []
  ⟨Decimal.natural (numeral.whole ++ fraction),
    (numeral.exponent.map ExponentPart.value).getD 0 - fraction.length⟩

/--
The token of a number.  Without fraction and exponent it is an integer, which
has to fit a signed word of 64 bits.
-/
def token? (numeral : Numeral) : Option Token :=
  match numeral.fraction, numeral.exponent with
  | none, none =>
      let value := Decimal.natural numeral.whole
      if value < Nat.pow 2 63 then some (.int (Int64.ofNat value)) else none
  | _, _ => some (.float numeral.decimal.toFloat)

end Numeral

/-- What stands behind an opening quote. -/
inductive StringTail where
  /-- The characters up to the closing quote. -/
  | closed (body : List Char)
  /-- The characters up to the end of the text, or to an escape that cannot be completed. -/
  | unclosed (body : List Char)
deriving DecidableEq, Repr

namespace StringTail

/-- Put characters in front. -/
def prepend (front : List Char) : StringTail → StringTail
  | .closed body => .closed (front ++ body)
  | .unclosed body => .unclosed (front ++ body)

/-- Read up to the closing quote; a backslash takes the next character with it. -/
def read : List Char → StringTail
  | [] => .unclosed []
  | '"' :: _ => .closed []
  | ['\\'] => .unclosed []
  | '\\' :: escaped :: rest =>
      if escaped = '\n' then .unclosed [] else prepend ['\\', escaped] (read rest)
  | char :: rest => prepend [char] (read rest)

/-- The characters a string body stands for; an unknown escape stands for itself. -/
def decode : List Char → List Char
  | [] => []
  | '\\' :: 'n' :: rest => '\n' :: decode rest
  | '\\' :: 't' :: rest => '\t' :: decode rest
  | '\\' :: '\\' :: rest => '\\' :: decode rest
  | '\\' :: '"' :: rest => '"' :: decode rest
  | '\\' :: other :: rest => '\\' :: other :: decode rest
  | char :: rest => char :: decode rest

end StringTail

namespace Lexeme

/-- The characters between tokens. -/
def isSpace (char : Char) : Bool :=
  char == ' ' || char == '\t' || char == '\n' || char == '\r'

/-- The characters an identifier may begin with. -/
def isWordStart (char : Char) : Bool :=
  char.isAlpha || char == '_'

/-- The characters an identifier may go on with. -/
def isWordPart (char : Char) : Bool :=
  char.isAlphanum || char == '_'

/-- The token of a word. -/
def wordToken (word : String) : Token :=
  match Keyword.ofWord? word with
  | some keyword => .keyword keyword
  | none => .identifier word

/--
The lexeme at the head of the text `first :: rest`, or the characters there that
form no token.
-/
def read (first : Char) (rest : List Char) : Except (List Char) Lexeme :=
  if isSpace first then
    .ok ⟨first :: rest.takeWhile isSpace, none⟩
  else if first = '#' then
    .ok ⟨first :: rest.takeWhile (· ≠ '\n'), none⟩
  else if isWordStart first then
    let word := first :: rest.takeWhile isWordPart
    .ok ⟨word, some (wordToken (String.ofList word))⟩
  else if first.isDigit then
    let numeral := Numeral.read (first :: rest)
    match numeral.token? with
    | some token => .ok ⟨numeral.chars, some token⟩
    | none => .error numeral.chars
  else if first = '"' then
    match StringTail.read rest with
    | .closed body =>
        .ok ⟨'"' :: (body ++ ['"']), some (.string (String.ofList (StringTail.decode body)))⟩
    | .unclosed body => .error ('"' :: body)
  else
    match Symbol.read? (first :: rest) with
    | some symbol => .ok ⟨symbol.text.toList, some (.symbol symbol)⟩
    | none => .error [first]

end Lexeme

namespace Token

/--
Cut a text into tokens.  The first `pending` characters belong to the lexeme before
and are passed over; `offset` is the place behind them.
-/
def scanIn (lines : LineIndex) (offset pending : Nat) :
    List Char → Except SourceError (List (Located Token))
  | [] => .ok []
  | first :: rest =>
      match pending with
      | pending + 1 => scanIn lines offset pending rest
      | 0 =>
          match Lexeme.read first rest with
          | .error chars => .error (.unexpectedCharacters chars (lines.spanOf offset chars))
          | .ok lexeme =>
              match scanIn lines (offset + Text.byteLength lexeme.chars)
                (lexeme.chars.length - 1) rest with
              | .error error => .error error
              | .ok tokens =>
                  match lexeme.token? with
                  | none => .ok tokens
                  | some token => .ok (⟨token, lines.spanOf offset lexeme.chars⟩ :: tokens)

/-- The tokens of a source text, or the first characters that form none. -/
def scan (source : String) : Except SourceError (List (Located Token)) :=
  scanIn (.ofText source) 0 0 source.toList

end Token

end MatrixScript
