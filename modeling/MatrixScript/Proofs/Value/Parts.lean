import MatrixScript.Value
import MatrixScript.Proofs.Outcome

/-!
# Parts of values

A list of coordinates leads from a value to a part of it, one member of an array after the
other.  The part is read by one walk and replaced by another, which fails just if the first
does and then leaves the value as it was.
-/

namespace MatrixScript

/-- The lists differ at a position that both have. -/
def Diverge (first second : List Int64) : Prop :=
  ∃ (position : Nat) (left right : Int64),
    first[position]? = some left ∧ second[position]? = some right ∧ left ≠ right

theorem Diverge.of_cons {place : Int64} {rest others : List Int64}
    (diverge : Diverge (place :: rest) others) :
    ∃ other more, others = other :: more ∧ (other ≠ place ∨ Diverge rest more) := by
  rcases diverge with ⟨position, left, right, leftAt, rightAt, different⟩
  cases others with
  | nil => simp at rightAt
  | cons other more =>
      refine ⟨other, more, rfl, ?_⟩
      cases position with
      | zero =>
          cases leftAt
          cases rightAt
          exact .inl (Ne.symm different)
      | succ position => exact .inr ⟨position, left, right, leftAt, rightAt, different⟩

namespace Value

section Members

variable {items : List Value} {place other : Int64} {item updated : Value}

/-- A coordinate leads to a member of an array, or nowhere. -/
theorem element_eq_ok_iff {value : Value} :
    value.element place = .ok item ↔
      ∃ items, value = .array items ∧ ¬ place < 0 ∧ items[place.toInt.toNat]? = some item := by
  cases value with
  | array items =>
      constructor
      · intro found
        rw [element] at found
        split at found
        · cases found
        · rename_i inside
          split at found
          · rename_i member selects
            cases found
            exact ⟨items, rfl, inside, selects⟩
          · cases found
      · rintro ⟨_, ⟨⟩, inside, selects⟩
        rw [element, if_neg inside, selects]
  | _ => simp [element]

theorem element_set_self (inside : ¬ place < 0) (found : items[place.toInt.toNat]? = some item) :
    (Value.array (items.set place.toInt.toNat updated)).element place = .ok updated := by
  rw [element_eq_ok_iff]
  refine ⟨_, rfl, inside, ?_⟩
  rw [List.getElem?_set_self]
  exact (List.getElem?_eq_some_iff.mp found).1

/-- Coordinates that differ lead to members at different positions. -/
theorem element_set_of_ne (inside : ¬ place < 0) (different : other ≠ place) :
    (Value.array (items.set place.toInt.toNat updated)).element other =
      (Value.array items).element other := by
  rw [element, element, List.length_set]
  by_cases negative : other < 0
  · rw [if_pos negative, if_pos negative]
  -- Neither coordinate is negative here, so that none is lost on the way to a position.
  · have apart : place.toInt.toNat ≠ other.toInt.toNat := by
      intro same
      rw [Int64.lt_iff_toInt_lt, Int64.toInt_zero] at inside negative
      exact different (Int64.toInt_inj.mp (by omega))
    rw [if_neg negative, if_neg negative, List.getElem?_set_ne apart]

/-- Putting in the member that is there already changes nothing. -/
theorem put_of_element {value : Value} (found : value.element place = .ok item) :
    value.put place item = value := by
  rcases element_eq_ok_iff.mp found with ⟨items, rfl, _, member⟩
  rcases List.getElem?_eq_some_iff.mp member with ⟨bound, rfl⟩
  exact congrArg Value.array (List.set_getElem_self bound)

end Members

/-! ## Replacing a part -/

theorem write_cons (value new : Value) (place : Int64) (rest : List Int64) :
    value.write new (place :: rest) =
      (value.element place >>= fun item => item.write new rest >>= fun updated =>
        .ok (value.put place updated)) := by
  rw [write, replace]
  cases value.element place with
  | error fault => rfl
  | ok item =>
      rw [ok_bind, write]
      dsimp only
      rcases item.replace new rest with ⟨_ | fault, left⟩ <;> rfl

/-- A walk that fails on its way leaves every array that it went through as it was. -/
theorem replace_atomic (value new : Value) (places : List Int64) :
    (value.replace new places).Atomic value := by
  induction places generalizing value with
  | nil => rintro fault ⟨⟩
  | cons place rest ih =>
      intro fault failed
      rw [replace] at failed ⊢
      cases found : value.element place with
      | error other => rfl
      | ok item =>
          rw [found] at failed
          show value.put place (item.replace new rest).left = value
          rw [ih item fault failed, put_of_element found]

/-- A part of a value is replaced: it is found, all else is as before, and it can be undone. -/
structure Rewritten (places : List Int64) (old new value changed : Value) : Prop where
  writes : value.write new places = .ok changed
  reads : changed.read places = .ok new
  elsewhere : ∀ others, Diverge places others → changed.read others = value.read others
  undone : changed.write old places = .ok value

variable {value old : Value} {places : List Int64}

/-- What can be read can be replaced. -/
theorem exists_rewritten (reads : value.read places = .ok old) (new : Value) :
    ∃ changed, Rewritten places old new value changed := by
  induction places generalizing value with
  | nil =>
      cases reads
      refine ⟨new, rfl, rfl, ?_, rfl⟩
      rintro others ⟨position, left, right, impossible, _⟩
      simp at impossible
  | cons place rest ih =>
      rw [read] at reads
      rcases exists_of_bind reads with ⟨item, found, reads⟩
      rcases ih reads with ⟨updated, inner⟩
      rcases element_eq_ok_iff.mp found with ⟨items, rfl, inside, member⟩
      refine ⟨.array (items.set place.toInt.toNat updated), ?_, ?_, ?_, ?_⟩
      · rw [write_cons, found, ok_bind, inner.writes]
        rfl
      · rw [read, element_set_self inside member, ok_bind, inner.reads]
      · intro others diverge
        -- The walks part here, or they go into the same member and part there.
        rcases diverge.of_cons with ⟨other, more, rfl, different | deeper⟩
        · rw [read, read, element_set_of_ne inside different]
        · by_cases same : other = place
          · rw [same, read, read, element_set_self inside member, found, ok_bind, ok_bind,
              inner.elsewhere more deeper]
          · rw [read, read, element_set_of_ne inside same]
      · have restored : items.set place.toInt.toNat item = items := by
          rcases List.getElem?_eq_some_iff.mp member with ⟨bound, rfl⟩
          exact List.set_getElem_self bound
        rw [write_cons, element_set_self inside member, ok_bind, inner.undone, ok_bind, put]
        simp only [List.set_set, restored]

/-- What cannot be read cannot be replaced, for the same reason. -/
theorem write_of_read_error {fault : Fault} (failed : value.read places = .error fault)
    (new : Value) : value.write new places = .error fault := by
  induction places generalizing value with
  | nil => cases failed
  | cons place rest ih =>
      rw [read] at failed
      rw [write_cons]
      cases found : value.element place with
      | error fault =>
          rw [found] at failed
          exact failed
      | ok item =>
          rw [found, ok_bind] at failed
          rw [ok_bind, ih failed]
          rfl

end Value

end MatrixScript
