import MatrixScript.Span
import MatrixScript.Text.Quoted

/-!
# Errors of reading a source text

A source text can fail to be a sequence of tokens, its tokens can fail to be a
program, or the text cannot be obtained at all.  The first failure ends the reading.
-/

namespace MatrixScript

/-- Why a source text could not be turned into a program. -/
inductive SourceError where
  /-- Some characters form no token. -/
  | lexical (message : String) (span : Span)
  /-- Some tokens form no program. -/
  | grammatical (message : String) (span : Span)
  /-- There is no text to read. -/
  | unreadable (message : String)
deriving DecidableEq, Repr

namespace SourceError

/-- Characters that form no token. -/
def unexpectedCharacters (chars : List Char) (span : Span) : SourceError :=
  .lexical ("unexpected character: " ++ Text.quote (String.ofList chars)) span

/-- The bare message. -/
def message : SourceError → String
  | .lexical message _ | .grammatical message _ | .unreadable message => message

/-- The part of the text that is at fault. -/
def span? : SourceError → Option Span
  | .lexical _ span | .grammatical _ span => some span
  | .unreadable _ => none

/-- The whole report. -/
def text : SourceError → String
  | .lexical message span => s!"Lexer error at {span.text}: {message}"
  | .grammatical message span => s!"Parser error at {span.text}: {message}"
  | .unreadable message => s!"IO error: {message}"

end SourceError

end MatrixScript
