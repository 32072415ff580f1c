/-!
# Transcripts

A transcript takes the lines that a program prints.  A silent one drops them.
-/

namespace MatrixScript

/-- The printed lines so far, if they are kept. -/
inductive Transcript where
  | kept (text : String)
  | silent
deriving DecidableEq, Repr

namespace Transcript

/-- A transcript that keeps its lines and has none yet. -/
def empty : Transcript := .kept ""

/-- Add a line. -/
def printLine (transcript : Transcript) (line : String) : Transcript :=
  match transcript with
  | .kept text => .kept (text ++ line ++ "\n")
  | .silent => .silent

/-- The lines kept. -/
def text : Transcript → String
  | .kept text => text
  | .silent => ""

/-- Forget the lines kept. -/
def clear : Transcript → Transcript
  | .kept _ => .kept ""
  | .silent => .silent

@[simp]
theorem text_clear (transcript : Transcript) : transcript.clear.text = "" := by
  cases transcript <;> rfl

end Transcript

end MatrixScript
