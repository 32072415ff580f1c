import MatrixScript.Text.Quoted
import MatrixScript.Decimal.Layout

/-!
# Structured documents

A document is a tree of records, lists, texts and numbers.  It is written as JSON,
with two blanks of indentation for every level; fields keep their order.
-/

namespace MatrixScript

/-- A tree of data. -/
inductive Document where
  | null
  | int (value : Int)
  | float (value : Float)
  | text (value : String)
  | list (items : List Document)
  | record (fields : List (String × Document))

namespace Document

/-- A record with a single field. -/
def tagged (name : String) (content : Document) : Document :=
  .record [(name, content)]

/-- A hexadecimal number of four digits. -/
def fourDigits (code : Nat) : String :=
  let digits := Nat.toDigits 16 code
  String.ofList (List.replicate (4 - digits.length) '0' ++ digits)

/-- How a character stands inside a text of a document. -/
def escapeChar (char : Char) : String :=
  match char with
  | '"' => "\\\""
  | '\\' => "\\\\"
  | '\n' => "\\n"
  | '\t' => "\\t"
  | '\r' => "\\r"
  | '\x08' => "\\b"
  | '\x0c' => "\\f"
  | _ => if char.toNat < 0x20 then "\\u" ++ fourDigits char.toNat else char.toString

/-- A text between quotes. -/
def textLiteral (value : String) : String :=
  "\"" ++ String.join (value.toList.map escapeChar) ++ "\""

/-- A number; a document has no infinite numbers. -/
def floatLiteral (value : Float) : String :=
  if value.isInf || value.isNaN then "null" else Layout.listed.text value

/-- A line break and the indentation of a level. -/
def newLine (level : Nat) : String :=
  "\n" ++ String.ofList (List.replicate (2 * level) ' ')

mutual

/-- A document whose first line is already indented to a level. -/
def renderAt (level : Nat) : Document → String
  | .null => "null"
  | .int value => toString value
  | .float value => floatLiteral value
  | .text value => textLiteral value
  | .list [] => "[]"
  | .list (head :: tail) =>
      "[" ++ newLine (level + 1) ++ renderAt (level + 1) head ++
        renderItems (level + 1) tail ++ newLine level ++ "]"
  | .record [] => "\x7b\x7d"
  | .record ((name, content) :: tail) =>
      "\x7b" ++ newLine (level + 1) ++ textLiteral name ++ ": " ++ renderAt (level + 1) content ++
        renderFields (level + 1) tail ++ newLine level ++ "\x7d"

/-- The items of a list behind the first. -/
def renderItems (level : Nat) : List Document → String
  | [] => ""
  | head :: tail => "," ++ newLine level ++ renderAt level head ++ renderItems level tail

/-- The fields of a record behind the first. -/
def renderFields (level : Nat) : List (String × Document) → String
  | [] => ""
  | (name, content) :: tail =>
      "," ++ newLine level ++ textLiteral name ++ ": " ++ renderAt level content ++
        renderFields level tail

end

/-- The text of a document. -/
def render (document : Document) : String :=
  renderAt 0 document

end Document

end MatrixScript
