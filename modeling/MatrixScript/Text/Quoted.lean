import MatrixScript.Text.Combining
import MatrixScript.Text.Unprintable

/-!
# Quoted text

Error reports and token listings show a text between double quotes.  The quote,
the backslash and the common controls get short escapes; every other character
that would be invisible, or would attach to its neighbour, is written by its code
point.
-/

namespace MatrixScript.Text

/-- A code point in lower-case hexadecimal, without leading zeros. -/
def hexadecimal (code : Nat) : String :=
  String.ofList (Nat.toDigits 16 code)

/-- How one character stands inside a quoted text. -/
def quoteChar (char : Char) : String :=
  match char with
  | '"' => "\\\""
  | '\\' => "\\\\"
  | '\n' => "\\n"
  | '\r' => "\\r"
  | '\t' => "\\t"
  | '\x00' => "\\0"
  | _ =>
      if isCombining char || isUnprintable char then
        "\\u\x7b" ++ hexadecimal char.toNat ++ "\x7d"
      else
        char.toString

/-- The text between double quotes, with everything invisible escaped. -/
def quote (text : String) : String :=
  "\"" ++ String.join (text.toList.map quoteChar) ++ "\""

end MatrixScript.Text
