import MatrixScript.Span

/-!
# The lines of a text

Spans count in bytes.  The index of a text lists the offsets of its line breaks, and the
line of an offset is found by a search in that list.
-/

namespace MatrixScript

/-- The number of bytes a run of characters takes in a source text. -/
def Text.byteLength (chars : List Char) : Nat :=
  chars.foldr (fun char total => char.utf8Size + total) 0

/-- The byte offsets of the line breaks of a text, in order. -/
structure LineIndex where
  breaks : List Nat
deriving DecidableEq, Repr

namespace LineIndex

/-- The offsets of the line breaks in a run of characters that begins at a given offset. -/
def breaksFrom (offset : Nat) : List Char → List Nat
  | [] => []
  | char :: rest =>
      if char = '\n' then offset :: breaksFrom (offset + char.utf8Size) rest
      else breaksFrom (offset + char.utf8Size) rest

/-- The index of a text. -/
def ofText (source : String) : LineIndex := ⟨breaksFrom 0 source.toList⟩

/-- The 1-based line of an offset; the first break that is not before the offset ends it. -/
def lineOf (index : LineIndex) (offset : Nat) : Nat :=
  index.breaks.findIdx (fun place => !decide (place < offset)) + 1

/-- The span of a run of characters that begins at an offset. -/
def spanOf (index : LineIndex) (offset : Nat) (chars : List Char) : Span where
  start := offset
  stop := offset + Text.byteLength chars
  line := index.lineOf offset

end LineIndex

end MatrixScript
