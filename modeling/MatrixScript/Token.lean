import MatrixScript.Span
import MatrixScript.Text.Quoted
import MatrixScript.Decimal.Layout

/-!
# Tokens

The words of the language: keywords, symbols, literals and identifiers.  A token
has a text, which is how error messages show it, and a listing, which names its
kind and its content.  What is read as a keyword or symbol and what is shown for it
are two tables.
-/

namespace MatrixScript

/-- The reserved words. -/
inductive Keyword where
  | «if»
  | «else»
  | «while»
  | «for»
  | «break»
  | «continue»
  | «return»
  | print
  | zeros
  | ones
  | eye
deriving DecidableEq, Repr

namespace Keyword

/-- Every keyword. -/
def all : List Keyword :=
  [.«if», .«else», .«while», .«for», .«break», .«continue», .«return», .print, .zeros, .ones,
    .eye]

/-- The word that is read as the keyword. -/
def text : Keyword → String
  | .«if» => "if"
  | .«else» => "else"
  | .«while» => "while"
  | .«for» => "for"
  | .«break» => "break"
  | .«continue» => "continue"
  | .«return» => "return"
  | .print => "print"
  | .zeros => "zeros"
  | .ones => "ones"
  | .eye => "eye"

/-- The keyword as error messages show it. -/
def display : Keyword → String
  | .«if» => "if"
  | .«else» => "else"
  | .«while» => "while"
  | .«for» => "for"
  | .«break» => "break"
  | .«continue» => "continue"
  | .«return» => "return"
  | .print => "print"
  | .zeros => "zeros"
  | .ones => "ones"
  | .eye => "eye"

/-- The kind a token listing gives to a keyword. -/
def kind : Keyword → String
  | .«if» => "If"
  | .«else» => "Else"
  | .«while» => "While"
  | .«for» => "For"
  | .«break» => "Break"
  | .«continue» => "Continue"
  | .«return» => "Return"
  | .print => "Print"
  | .zeros => "Zeros"
  | .ones => "Ones"
  | .eye => "Eye"

/-- The keyword a word spells, if it is reserved. -/
def ofWord? (word : String) : Option Keyword :=
  all.find? fun keyword => keyword.text == word

theorem mem_all (keyword : Keyword) : keyword ∈ all := by
  cases keyword <;> decide

end Keyword

/-- The operators and the punctuation. -/
inductive Symbol where
  | dotPlus
  | dotMinus
  | dotStar
  | dotSlash
  | plusEqual
  | minusEqual
  | starEqual
  | slashEqual
  | equalEqual
  | notEqual
  | lessEqual
  | greaterEqual
  | less
  | greater
  | plus
  | minus
  | star
  | slash
  | quote
  | equal
  | openParen
  | closeParen
  | openBracket
  | closeBracket
  | openBrace
  | closeBrace
  | comma
  | semicolon
  | colon
deriving DecidableEq, Repr

namespace Symbol

/-- Every symbol; those of two characters stand before those of one. -/
def all : List Symbol :=
  [.dotPlus, .dotMinus, .dotStar, .dotSlash, .plusEqual, .minusEqual, .starEqual, .slashEqual,
    .equalEqual, .notEqual, .lessEqual, .greaterEqual, .less, .greater, .plus, .minus, .star,
    .slash, .quote, .equal, .openParen, .closeParen, .openBracket, .closeBracket, .openBrace,
    .closeBrace, .comma, .semicolon, .colon]

/-- The characters that are read as the symbol. -/
def text : Symbol → String
  | .dotPlus => ".+"
  | .dotMinus => ".-"
  | .dotStar => ".*"
  | .dotSlash => "./"
  | .plusEqual => "+="
  | .minusEqual => "-="
  | .starEqual => "*="
  | .slashEqual => "/="
  | .equalEqual => "=="
  | .notEqual => "!="
  | .lessEqual => "<="
  | .greaterEqual => ">="
  | .less => "<"
  | .greater => ">"
  | .plus => "+"
  | .minus => "-"
  | .star => "*"
  | .slash => "/"
  | .quote => "'"
  | .equal => "="
  | .openParen => "("
  | .closeParen => ")"
  | .openBracket => "["
  | .closeBracket => "]"
  | .openBrace => "\x7b"
  | .closeBrace => "\x7d"
  | .comma => ","
  | .semicolon => ";"
  | .colon => ":"

/-- The symbol as error messages show it. -/
def display : Symbol → String
  | .dotPlus => ".+"
  | .dotMinus => ".-"
  | .dotStar => ".*"
  | .dotSlash => "./"
  | .plusEqual => "+="
  | .minusEqual => "-="
  | .starEqual => "*="
  | .slashEqual => "/="
  | .equalEqual => "=="
  | .notEqual => "!="
  | .lessEqual => "<="
  | .greaterEqual => ">="
  | .less => "<"
  | .greater => ">"
  | .plus => "+"
  | .minus => "-"
  | .star => "*"
  | .slash => "/"
  | .quote => "'"
  | .equal => "="
  | .openParen => "("
  | .closeParen => ")"
  | .openBracket => "["
  | .closeBracket => "]"
  | .openBrace => "\x7b"
  | .closeBrace => "\x7d"
  | .comma => ","
  | .semicolon => ";"
  | .colon => ":"

/-- The kind a token listing gives to a symbol. -/
def kind : Symbol → String
  | .dotPlus => "DotPlus"
  | .dotMinus => "DotMinus"
  | .dotStar => "DotStar"
  | .dotSlash => "DotSlash"
  | .plusEqual => "PlusEq"
  | .minusEqual => "MinusEq"
  | .starEqual => "StarEq"
  | .slashEqual => "SlashEq"
  | .equalEqual => "EqEq"
  | .notEqual => "NotEq"
  | .lessEqual => "LtEq"
  | .greaterEqual => "GtEq"
  | .less => "Lt"
  | .greater => "Gt"
  | .plus => "Plus"
  | .minus => "Minus"
  | .star => "Star"
  | .slash => "Slash"
  | .quote => "Quote"
  | .equal => "Eq"
  | .openParen => "LParen"
  | .closeParen => "RParen"
  | .openBracket => "LBracket"
  | .closeBracket => "RBracket"
  | .openBrace => "LBrace"
  | .closeBrace => "RBrace"
  | .comma => "Comma"
  | .semicolon => "Semi"
  | .colon => "Colon"

/-- The longest symbol at the head of a text. -/
def read? (input : List Char) : Option Symbol :=
  all.find? fun symbol => symbol.text.toList.isPrefixOf input

theorem mem_all (symbol : Symbol) : symbol ∈ all := by
  cases symbol <;> decide

end Symbol

/-- A word of the language. -/
inductive Token where
  | keyword (word : Keyword)
  | symbol (mark : Symbol)
  | int (value : Int64)
  | float (value : Float)
  | string (value : String)
  | identifier (name : String)
deriving DecidableEq

namespace Token

/-- The token as error messages show it; the content of a string stands unescaped. -/
def text : Token → String
  | .keyword word => word.display
  | .symbol mark => mark.display
  | .int value => toString value.toInt
  | .float value => Layout.printed.text value
  | .string value => "\"" ++ value ++ "\""
  | .identifier name => name

/-- The kind of a token in a listing. -/
def kind : Token → String
  | .keyword word => word.kind
  | .symbol mark => mark.kind
  | .int _ => "IntLit"
  | .float _ => "FloatLit"
  | .string _ => "StringLit"
  | .identifier _ => "Ident"

/-- The token in a listing: its kind, and its content where the kind leaves it open. -/
def listing (token : Token) : String :=
  match token with
  | .keyword _ | .symbol _ => token.kind
  | .int _ | .float _ => token.kind ++ "(" ++ token.text ++ ")"
  | .string value | .identifier value => token.kind ++ "(" ++ Text.quote value ++ ")"

end Token

end MatrixScript
