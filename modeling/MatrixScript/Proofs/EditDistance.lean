import Mathlib.Order.Bounds.Defs
import MatrixScript.EditDistance

/-!
# Edit scripts

An edit inserts, deletes or replaces one character of a text.  A script is a list of
edits, made one after the other, and `editDistance` is the length of the shortest script
that leads from one text to another.

Three things are put together.  The rows of the computation hold `EditDistance.distance`,
which is a recursion on two lists of characters.  There is a script as long as that
distance.  No script is shorter: an edit, wherever it is made, brings a text nearer to
another by one at most.

A row is extended at the end of a text, whereas the recursion takes a list apart at its
head.  So the lists are the texts in reverse, and a script is reversed with its texts.
-/

namespace MatrixScript

/-! ## Edits -/

/-- A change of one character, at the place before which that many characters stand. -/
inductive Edit where
  | insert (place : Nat) (char : Char)
  | delete (place : Nat)
  | replace (place : Nat) (char : Char)
deriving DecidableEq, Repr

namespace Edit

/-- A stretch of a text is exchanged, if the text is long enough to have it. -/
def splice? (text : List Char) (place length : Nat) (new : List Char) : Option (List Char) :=
  if place + length ≤ text.length then
    some (text.take place ++ (new ++ text.drop (place + length)))
  else none

/-- The text after an edit, if it has the place. -/
def perform? (text : List Char) : Edit → Option (List Char)
  | .insert place char => splice? text place 0 [char]
  | .delete place => splice? text place 1 []
  | .replace place char => splice? text place 1 [char]

/-- The text after the edits of a script, if every edit finds its place. -/
def run? (script : List Edit) (text : List Char) : Option (List Char) :=
  script.foldlM perform? text

theorem splice?_eq_some_iff {text result new : List Char} {place length : Nat} :
    splice? text place length new = some result ↔
      ∃ before old after, text = before ++ (old ++ after) ∧ before.length = place ∧
        old.length = length ∧ result = before ++ (new ++ after) := by
  rw [splice?]
  constructor
  · intro spliced
    split at spliced
    · rename_i inside
      cases spliced
      refine ⟨text.take place, (text.drop place).take length, text.drop (place + length),
        ?_, ?_, ?_, rfl⟩
      · rw [← List.drop_drop, List.take_append_drop, List.take_append_drop]
      · rw [List.length_take]
        omega
      · rw [List.length_take, List.length_drop]
        omega
    · cases spliced
  · rintro ⟨before, old, after, rfl, rfl, rfl, rfl⟩
    rw [if_pos (by simp only [List.length_append]; omega), List.take_left, ← List.drop_drop,
      List.drop_left, List.drop_left]

/-- One text is made from another by an edit. -/
def Links (text result : List Char) : Prop :=
  ∃ edit, perform? text edit = some result

/--
An edit exchanges a stretch of at most one character for another such stretch, and not
both are empty.
-/
theorem links_iff {text result : List Char} :
    Links text result ↔
      ∃ before old new after, text = before ++ (old ++ after) ∧ result = before ++ (new ++ after) ∧
        old.length ≤ 1 ∧ new.length ≤ 1 ∧ 1 ≤ old.length + new.length := by
  constructor
  · rintro ⟨edit, performed⟩
    cases edit
    all_goals
      rcases splice?_eq_some_iff.mp performed with ⟨before, old, after, rfl, _, length, rfl⟩
      exact ⟨before, old, _, after, rfl, rfl, by simp [length]⟩
  · rintro ⟨before, old, new, after, rfl, rfl, oldShort, newShort, change⟩
    rcases new with _ | ⟨char, _ | ⟨_, _⟩⟩
    · have one : old.length = 1 := by
        simp only [List.length_nil] at change
        omega
      exact ⟨.delete before.length,
        splice?_eq_some_iff.mpr ⟨before, old, after, rfl, rfl, one, rfl⟩⟩
    · rcases Nat.le_one_iff_eq_zero_or_eq_one.mp oldShort with none | one
      · exact ⟨.insert before.length char,
          splice?_eq_some_iff.mpr ⟨before, old, after, rfl, rfl, none, rfl⟩⟩
      · exact ⟨.replace before.length char,
          splice?_eq_some_iff.mpr ⟨before, old, after, rfl, rfl, one, rfl⟩⟩
    · simp at newShort

namespace Links

variable {text result : List Char}

/-- An edit can be undone by another. -/
theorem symm (links : Links text result) : Links result text := by
  rcases links_iff.mp links with ⟨before, old, new, after, rfl, rfl, oldShort, newShort, change⟩
  exact links_iff.mpr
    ⟨before, new, old, after, rfl, rfl, newShort, oldShort, Nat.add_comm _ _ ▸ change⟩

theorem cons (char : Char) (links : Links text result) : Links (char :: text) (char :: result) := by
  rcases links_iff.mp links with ⟨before, old, new, after, rfl, rfl, short⟩
  exact links_iff.mpr ⟨char :: before, old, new, after, rfl, rfl, short⟩

theorem reverse (links : Links text result) : Links text.reverse result.reverse := by
  rcases links_iff.mp links with ⟨before, old, new, after, rfl, rfl, short⟩
  refine links_iff.mpr ⟨after.reverse, old.reverse, new.reverse, before.reverse, ?_, ?_, ?_⟩
  · simp
  · simp
  · simpa using short

theorem insertion (char : Char) (text : List Char) : Links text (char :: text) :=
  ⟨.insert 0 char, rfl⟩

theorem deletion (char : Char) (text : List Char) : Links (char :: text) text :=
  (insertion char text).symm

theorem replacement (old new : Char) (text : List Char) : Links (old :: text) (new :: text) :=
  links_iff.mpr ⟨[], [old], [new], text, rfl, rfl, by simp⟩

end Links

/-! ## Scripts -/

/-- A script of that length leads from one text to another. -/
def Reaches (length : Nat) (source target : List Char) : Prop :=
  ∃ script : List Edit, script.length = length ∧ run? script source = some target

theorem reaches_zero_iff {source target : List Char} :
    Reaches 0 source target ↔ source = target := by
  constructor
  · rintro ⟨script, none, ran⟩
    cases List.length_eq_zero_iff.mp none
    cases ran
    rfl
  · rintro rfl
    exact ⟨[], rfl, rfl⟩

/-- The first edit of a script, and the rest of it. -/
theorem reaches_succ_iff {length : Nat} {source target : List Char} :
    Reaches (length + 1) source target ↔
      ∃ middle, Links source middle ∧ Reaches length middle target := by
  constructor
  · rintro ⟨script, count, ran⟩
    cases script with
    | nil => cases count
    | cons edit rest =>
        rw [run?, List.foldlM_cons] at ran
        rcases Option.bind_eq_some_iff.mp ran with ⟨middle, performed, ran⟩
        exact ⟨middle, ⟨edit, performed⟩, rest, Nat.succ.inj count, ran⟩
  · rintro ⟨middle, ⟨edit, performed⟩, rest, count, ran⟩
    refine ⟨edit :: rest, congrArg (· + 1) count, ?_⟩
    rw [run?, List.foldlM_cons, performed]
    exact ran

namespace Reaches

variable {length : Nat} {source middle target : List Char}

theorem refl (text : List Char) : Reaches 0 text text :=
  reaches_zero_iff.mpr rfl

theorem trans {further : Nat} (start : Reaches length source middle)
    (rest : Reaches further middle target) : Reaches (length + further) source target := by
  induction length generalizing source with
  | zero =>
      cases reaches_zero_iff.mp start
      rwa [Nat.zero_add]
  | succ length ih =>
      rcases reaches_succ_iff.mp start with ⟨next, links, start⟩
      rw [Nat.succ_add]
      exact reaches_succ_iff.mpr ⟨next, links, ih start⟩

theorem of_links (links : Links source target) : Reaches 1 source target :=
  reaches_succ_iff.mpr ⟨target, links, refl target⟩

/-- What can be done by an edit for each edit can be done by a script for a script. -/
theorem map {view : List Char → List Char}
    (each : ∀ text result, Links text result → Links (view text) (view result))
    (reaches : Reaches length source target) : Reaches length (view source) (view target) := by
  induction length generalizing source with
  | zero =>
      cases reaches_zero_iff.mp reaches
      exact refl _
  | succ length ih =>
      rcases reaches_succ_iff.mp reaches with ⟨next, links, rest⟩
      exact reaches_succ_iff.mpr ⟨view next, each _ _ links, ih rest⟩

theorem shorter {other : Nat} (first : Reaches length source target)
    (second : Reaches other source target) : Reaches (min length other) source target := by
  rcases Nat.le_total length other with below | above
  · rwa [Nat.min_eq_left below]
  · rwa [Nat.min_eq_right above]

theorem reverse (reaches : Reaches length source target) :
    Reaches length source.reverse target.reverse :=
  reaches.map fun _ _ links => links.reverse

theorem symm (reaches : Reaches length source target) : Reaches length target source := by
  induction length generalizing source with
  | zero =>
      cases reaches_zero_iff.mp reaches
      exact refl _
  | succ length ih =>
      rcases reaches_succ_iff.mp reaches with ⟨next, links, rest⟩
      exact (ih rest).trans (of_links links.symm)

end Reaches

end Edit

/-! ## The recursion -/

namespace EditDistance

open Edit

/-- The distance of two lists of characters, by their heads. -/
def distance : List Char → List Char → Nat
  | [], targets => targets.length
  | sources, [] => sources.length
  | source :: sources, target :: targets =>
      min
        (min (distance sources (target :: targets) + 1) (distance (source :: sources) targets + 1))
        (distance sources targets + if source = target then 0 else 1)
termination_by sources targets => sources.length + targets.length

@[simp]
theorem distance_nil_left (targets : List Char) : distance [] targets = targets.length := by
  rw [distance]

@[simp]
theorem distance_nil_right (sources : List Char) : distance sources [] = sources.length := by
  cases sources <;> simp [distance]

theorem distance_cons_cons (source target : Char) (sources targets : List Char) :
    distance (source :: sources) (target :: targets) =
      min (min (distance sources (target :: targets) + 1)
        (distance (source :: sources) targets + 1))
        (distance sources targets + if source = target then 0 else 1) := by
  rw [distance]

theorem distance_self (text : List Char) : distance text text = 0 := by
  induction text with
  | nil => rw [distance_nil_left, List.length_nil]
  | cons char text ih => rw [distance_cons_cons, ih, if_pos rfl, Nat.add_zero, Nat.min_zero]

/-! ## A script as long as the distance -/

theorem reaches_distance (sources targets : List Char) :
    Reaches (distance sources targets) sources targets := by
  -- The recursion shortens the first list, or keeps it and shortens the second.
  induction sources generalizing targets with
  | nil =>
      rw [distance_nil_left]
      induction targets with
      | nil => exact .refl []
      | cons target targets ih => exact ih.trans (.of_links (.insertion target targets))
  | cons source sources ih =>
      induction targets with
      | nil =>
          have removed := (Reaches.of_links (.deletion source sources)).trans (ih [])
          rw [distance_nil_right, Nat.add_comm] at removed
          rwa [distance_nil_right]
      | cons target targets inserted =>
          rw [distance_cons_cons]
          refine .shorter (.shorter ?_ ?_) ?_
          · rw [Nat.add_comm]
            exact (Reaches.of_links (.deletion source sources)).trans (ih (target :: targets))
          · exact inserted.trans (.of_links (.insertion target targets))
          · have kept := (ih targets).map fun _ _ links => links.cons source
            split
            · rename_i same
              exact same ▸ kept
            · exact kept.trans (.of_links (.replacement source target targets))

/-! ## No shorter script -/

theorem distance_cons_left_le (source : Char) (sources targets : List Char) :
    distance (source :: sources) targets ≤ distance sources targets + 1 := by
  cases targets with
  | nil => simp
  | cons target targets =>
      rw [distance_cons_cons]
      omega

theorem distance_cons_right_le (sources : List Char) (target : Char) (targets : List Char) :
    distance sources (target :: targets) ≤ distance sources targets + 1 := by
  cases sources with
  | nil => simp
  | cons source sources =>
      rw [distance_cons_cons]
      omega

theorem distance_le_cons_left (source : Char) (sources targets : List Char) :
    distance sources targets ≤ distance (source :: sources) targets + 1 := by
  induction targets with
  | nil =>
      rw [distance_nil_right, distance_nil_right, List.length_cons]
      omega
  | cons target targets ih =>
      have further := distance_cons_right_le sources target targets
      rw [distance_cons_cons]
      omega

theorem distance_replace_le (old new : Char) (sources targets : List Char) :
    distance (old :: sources) targets ≤ distance (new :: sources) targets + 1 := by
  induction targets with
  | nil => simp
  | cons target targets ih =>
      rw [distance_cons_cons, distance_cons_cons]
      split <;> split <;> omega

/-- What brings a text nearer by one at most does so behind a further character too. -/
theorem distance_cons_le_of_le {sources others : List Char}
    (near : ∀ targets, distance sources targets ≤ distance others targets + 1) (char : Char)
    (targets : List Char) :
    distance (char :: sources) targets ≤ distance (char :: others) targets + 1 := by
  induction targets with
  | nil => simpa using near []
  | cons target targets ih =>
      have shorter := near (target :: targets)
      have both := near targets
      rw [distance_cons_cons, distance_cons_cons]
      omega

theorem distance_splice_le {old new : List Char} (oldShort : old.length ≤ 1)
    (newShort : new.length ≤ 1) (before after targets : List Char) :
    distance (before ++ (old ++ after)) targets ≤
      distance (before ++ (new ++ after)) targets + 1 := by
  induction before generalizing targets with
  | nil =>
      -- At the head, a character comes in, goes out or is exchanged.
      rcases old with _ | ⟨out, _ | ⟨_, _⟩⟩
      · rcases new with _ | ⟨char, _ | ⟨_, _⟩⟩
        · exact Nat.le_succ _
        · exact distance_le_cons_left char after targets
        · simp at newShort
      · rcases new with _ | ⟨char, _ | ⟨_, _⟩⟩
        · exact distance_cons_left_le out after targets
        · exact distance_replace_le out char after targets
        · simp at newShort
      · simp at oldShort
  | cons char before ih => exact distance_cons_le_of_le ih char targets

/-- An edit brings a text nearer to another by one at most. -/
theorem distance_le_of_links {text result : List Char} (links : Links text result)
    (targets : List Char) : distance text targets ≤ distance result targets + 1 := by
  rcases links_iff.mp links with ⟨before, old, new, after, rfl, rfl, oldShort, newShort, _⟩
  exact distance_splice_le oldShort newShort before after targets

theorem distance_le_of_reaches {length : Nat} {sources targets : List Char}
    (reaches : Reaches length sources targets) : distance sources targets ≤ length := by
  induction length generalizing sources with
  | zero =>
      cases reaches_zero_iff.mp reaches
      exact Nat.le_of_eq (distance_self _)
  | succ length ih =>
      rcases reaches_succ_iff.mp reaches with ⟨middle, links, rest⟩
      exact Nat.le_trans (distance_le_of_links links targets) (Nat.succ_le_succ (ih rest))

/-! ## Rows -/

/-- The distances to the texts beyond `done`, longer by one character each. -/
def onward (sources done : List Char) : List Char → List Nat
  | [] => []
  | target :: targets =>
      distance sources (target :: done) :: onward sources (target :: done) targets

/-- The distances to all initial parts of a text. -/
def distances (sources targets : List Char) : List Nat :=
  distance sources [] :: onward sources [] targets

/-- The distances from the empty text count up. -/
theorem onward_nil (done targets : List Char) :
    onward [] done targets = List.range' (done.length + 1) targets.length := by
  induction targets generalizing done with
  | nil => rfl
  | cons target targets ih =>
      rw [onward, ih, distance_nil_left, List.length_cons, List.length_cons, List.range'_succ]

theorem firstRow_eq (targets : List Char) : firstRow targets = distances [] targets := by
  rw [firstRow, List.range_eq_range', List.range'_succ, distances, onward_nil, distance_nil_left]
  rfl

theorem rowFrom_eq (char : Char) (sources done targets : List Char) :
    rowFrom char (distance (char :: sources) done) (distance sources done) targets
      (onward sources done targets) = onward (char :: sources) done targets := by
  induction targets generalizing done with
  | nil => rfl
  | cons target targets ih =>
      rw [onward, onward, rowFrom, ← ih (target :: done), distance_cons_cons]

theorem nextRow_distances (char : Char) (sources targets : List Char) :
    nextRow targets (distances sources targets) char = distances (char :: sources) targets := by
  have first : distance sources [] + 1 = distance (char :: sources) [] := by simp
  rw [distances, nextRow, first, rowFrom_eq, distances]

/-- The loop over the first text: before each round the row is that of the text so far. -/
theorem foldl_nextRow (sources done targets : List Char) :
    sources.foldl (nextRow targets) (distances done targets) =
      distances (sources.reverse ++ done) targets := by
  induction sources generalizing done with
  | nil => rfl
  | cons source sources ih =>
      rw [List.foldl_cons, nextRow_distances, ih, List.reverse_cons, List.append_assoc]
      rfl

theorem row_eq (sources targets : List Char) :
    row sources targets = distances sources.reverse targets := by
  rw [row, firstRow_eq, foldl_nextRow, List.append_nil]

theorem getLast?_onward (sources done targets : List Char) :
    (onward sources done targets).getLast?.getD (distance sources done) =
      distance sources (targets.reverse ++ done) := by
  induction targets generalizing done with
  | nil => rfl
  | cons target targets ih =>
      rw [onward, List.getLast?_cons, Option.getD_some, ih, List.reverse_cons, List.append_assoc]
      rfl

end EditDistance

open Edit EditDistance

theorem editDistance_eq (source target : String) :
    editDistance source target = distance source.toList.reverse target.toList.reverse := by
  rw [editDistance, row_eq, distances, List.getLast?_cons, Option.getD_some, getLast?_onward,
    List.append_nil]

theorem reaches_editDistance (source target : String) :
    Reaches (editDistance source target) source.toList target.toList := by
  rw [editDistance_eq]
  simpa using (reaches_distance source.toList.reverse target.toList.reverse).reverse

theorem editDistance_le_of_reaches {length : Nat} {source target : String}
    (reaches : Reaches length source.toList target.toList) :
    editDistance source target ≤ length := by
  rw [editDistance_eq]
  exact distance_le_of_reaches reaches.reverse

/--
The distance of two texts is the length of the shortest script that leads from one to the
other.  So it is zero for equal texts alone, it is the same in both directions, and no
detour is shorter.
-/
theorem editDistance_shortest (source target : String) :
    IsLeast
      {length | ∃ script : List Edit, script.length = length ∧
        run? script source.toList = some target.toList}
      (editDistance source target) ∧
    (editDistance source target = 0 ↔ source = target) ∧
    editDistance target source = editDistance source target ∧
    ∀ further : String,
      editDistance source further ≤ editDistance source target + editDistance target further := by
  have shortest := reaches_editDistance source target
  refine ⟨⟨shortest, fun length reaches => editDistance_le_of_reaches reaches⟩, ?_, ?_, ?_⟩
  · constructor
    · intro zero
      rw [zero, reaches_zero_iff] at shortest
      exact String.toList_inj.mp shortest
    · rintro rfl
      exact Nat.le_zero.mp (editDistance_le_of_reaches (.refl _))
  · apply Nat.le_antisymm
    · exact editDistance_le_of_reaches shortest.symm
    · exact editDistance_le_of_reaches (reaches_editDistance target source).symm
  · intro further
    exact editDistance_le_of_reaches (shortest.trans (reaches_editDistance target further))

example : editDistance "kitten" "sitting" = 3 := by decide

end MatrixScript
