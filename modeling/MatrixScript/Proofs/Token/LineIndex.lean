import MatrixScript.Token.LineIndex

/-!
# Positions in a text

A position has an offset and a line, and moves on over characters: each adds its bytes, and
a line break adds a line.  The index of a text gives the same lines.  The breaks in what
was passed lie before the offset and the others do not, so the search stops behind them:
`LineIndex.spanOf_eq`.
-/

namespace MatrixScript

namespace Text

@[simp]
theorem byteLength_append (front back : List Char) :
    byteLength (front ++ back) = byteLength front + byteLength back := by
  induction front with
  | nil => simp [byteLength]
  | cons head tail ih =>
      simp only [byteLength, List.cons_append, List.foldr_cons] at ih ⊢
      rw [ih, Nat.add_assoc]

end Text

/-- A place in a source text: the byte offset reached and the line it is on. -/
structure Position where
  offset : Nat
  line : Nat
deriving DecidableEq, Repr

namespace Position

/-- The beginning of every text. -/
def origin : Position := ⟨0, 1⟩

/-- The position behind a run of characters. -/
def advance (position : Position) (chars : List Char) : Position where
  offset := position.offset + Text.byteLength chars
  line := position.line + chars.count '\n'

/-- The span of a run of characters that begins at the position. -/
def spanOf (position : Position) (chars : List Char) : Span where
  start := position.offset
  stop := position.offset + Text.byteLength chars
  line := position.line

@[simp]
theorem advance_nil (position : Position) : position.advance [] = position := by
  simp [advance, Text.byteLength]

theorem advance_append (position : Position) (front back : List Char) :
    position.advance (front ++ back) = (position.advance front).advance back := by
  simp [advance, Nat.add_assoc]

theorem offset_advance_origin (before : List Char) :
    (origin.advance before).offset = Text.byteLength before :=
  Nat.zero_add _

end Position

namespace LineIndex

theorem breaksFrom_append (offset : Nat) (front back : List Char) :
    breaksFrom offset (front ++ back) =
      breaksFrom offset front ++ breaksFrom (offset + Text.byteLength front) back := by
  induction front generalizing offset with
  | nil => rfl
  | cons head tail ih =>
      have further : offset + head.utf8Size + Text.byteLength tail =
          offset + Text.byteLength (head :: tail) := Nat.add_assoc _ _ _
      rw [List.cons_append, breaksFrom, breaksFrom, ih, further]
      split <;> rfl

theorem length_breaksFrom (offset : Nat) (chars : List Char) :
    (breaksFrom offset chars).length = chars.count '\n' := by
  induction chars generalizing offset with
  | nil => rfl
  | cons head tail ih =>
      rw [breaksFrom, List.count_cons]
      split
      · rename_i isBreak
        rw [List.length_cons, ih, isBreak]
        rfl
      · rename_i other
        rw [ih, if_neg (by simpa using other), Nat.add_zero]

/-- The breaks in a run of characters lie within it. -/
theorem mem_breaksFrom {offset place : Nat} {chars : List Char}
    (member : place ∈ breaksFrom offset chars) :
    offset ≤ place ∧ place < offset + Text.byteLength chars := by
  induction chars generalizing offset with
  | nil => cases member
  | cons head tail ih =>
      have size : Text.byteLength (head :: tail) = head.utf8Size + Text.byteLength tail := rfl
      have positive := head.utf8Size_pos
      have inTail (found : place ∈ breaksFrom (offset + head.utf8Size) tail) :
          offset ≤ place ∧ place < offset + Text.byteLength (head :: tail) := by
        have bounds := ih found
        omega
      rw [breaksFrom] at member
      split at member
      · rcases List.mem_cons.mp member with rfl | found
        · omega
        · exact inTail found
      · exact inTail member

/-- The search for an offset passes the breaks in front of it and no others. -/
theorem lineOf_byteLength {source : String} {before after : List Char}
    (splits : source.toList = before ++ after) :
    (ofText source).lineOf (Text.byteLength before) = 1 + before.count '\n' := by
  have passed : ∀ place ∈ breaksFrom 0 before,
      (!decide (place < Text.byteLength before)) = false := by
    intro place member
    have bounds := mem_breaksFrom member
    rw [Nat.zero_add] at bounds
    simp [bounds.2]
  have stops : (breaksFrom (Text.byteLength before) after).findIdx
      (fun place => !decide (place < Text.byteLength before)) = 0 := by
    cases further : breaksFrom (Text.byteLength before) after with
    | nil => rfl
    | cons place rest =>
        have member : place ∈ breaksFrom (Text.byteLength before) after := by
          rw [further]
          exact List.mem_cons_self
        have behind : ¬ place < Text.byteLength before := Nat.not_lt.mpr (mem_breaksFrom member).1
        rw [List.findIdx_cons]
        simp [behind]
  rw [lineOf, ofText, splits, breaksFrom_append, Nat.zero_add, List.findIdx_append]
  have none :
      (breaksFrom 0 before).findIdx (fun place => !decide (place < Text.byteLength before)) =
        (breaksFrom 0 before).length := List.findIdx_eq_length.mpr passed
  rw [none, if_neg (Nat.lt_irrefl _), stops, length_breaksFrom]
  omega

/-- The span of a piece of a text, by its index and by the way to it. -/
theorem spanOf_eq {source : String} {before after : List Char}
    (splits : source.toList = before ++ after) (piece : List Char) :
    (ofText source).spanOf (Text.byteLength before) piece =
      (Position.origin.advance before).spanOf piece := by
  rw [spanOf, lineOf_byteLength splits, Position.spanOf, Position.offset_advance_origin]
  rfl

end LineIndex

end MatrixScript
