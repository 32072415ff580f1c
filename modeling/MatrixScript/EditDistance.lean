/-!
# Edit distance

The distance of two texts is the least number of insertions, deletions and
replacements of single characters that turn one into the other.

It is computed row by row.  The row of a text `source` holds the distances from
`source` to every initial part of the other text, from the empty one up.
-/

namespace MatrixScript.EditDistance

/--
The entries of a row behind its first.  `left` is the entry before, `corner` the
entry above that one, and `above` holds the rest of the row above.
-/
def rowFrom (char : Char) (left corner : Nat) : List Char → List Nat → List Nat
  | target :: targets, up :: above =>
      let cost := if char = target then 0 else 1
      let entry := min (min (up + 1) (left + 1)) (corner + cost)
      entry :: rowFrom char entry up targets above
  | _, _ => []

/-- The row of a text with one more character at its end, from the row of the text. -/
def nextRow (targets : List Char) (row : List Nat) (char : Char) : List Nat :=
  match row with
  | [] => []
  | corner :: above => (corner + 1) :: rowFrom char (corner + 1) corner targets above

/-- The row of the empty text. -/
def firstRow (targets : List Char) : List Nat :=
  List.range (targets.length + 1)

/-- The row of a text. -/
def row (sources targets : List Char) : List Nat :=
  sources.foldl (nextRow targets) (firstRow targets)

end EditDistance

/-- The least number of single-character changes between two texts. -/
def editDistance (source target : String) : Nat :=
  ((EditDistance.row source.toList target.toList).getLast?).getD 0

/--
The first of the candidates that are nearest to a name, if its distance is within a
threshold.
-/
def nearestName? (name : String) (candidates : List String) (threshold : Nat) : Option String :=
  (candidates.foldl
    (fun (best : Option (String × Nat)) candidate =>
      let distance := editDistance name candidate
      if distance ≤ threshold && best.all fun found => distance < found.2 then
        some (candidate, distance)
      else best)
    none).map Prod.fst

/-- A suggestion for a misspelled name: a candidate at a distance of at most two. -/
def suggestion? (name : String) (candidates : List String) : Option String :=
  (nearestName? name candidates 2).map fun found => s!"did you mean `{found}`?"

end MatrixScript
