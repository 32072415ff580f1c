import MatrixScript.Proofs.Stmt.Lines

/-!
# Places

A slot is read by one walk along its coordinates and written, in place, by another.  The
two agree on the frame, on the array and on the fault: a slot can be written just if it can
be read, and otherwise the memory stays as it was.  After a write the new value is found in
the slot, what is apart from the slot reads as before, and the old value, written back,
restores the memory.

Two places are apart if they belong to different variables, or if their coordinates
differ at a position that both have.
-/

namespace MatrixScript

/-! ## The frame that owns a variable -/

namespace Memory

variable {memory : Memory} {name : String} {old : Value} {inner outer : List Frame}
  {owner : Frame}

theorem eq_of_frames {first second : Memory} (same : first.frames = second.frames) :
    first = second := by
  cases first
  cases second
  cases same
  rfl

theorem replaceIn_append (free : ∀ frame ∈ inner, frame.get? name = none) (value : Value)
    (frames : List Frame) :
    replaceIn name value (inner ++ frames) = (replaceIn name value frames).map (inner ++ ·) := by
  induction inner with
  | nil => simp
  | cons frame rest ih =>
      rw [List.forall_mem_cons] at free
      have elsewhere := (Bindings.not_contains_iff frame name).mpr free.1
      rw [List.cons_append, replaceIn, if_neg elsewhere, ih free.2, Option.map_map]
      rfl

/-- The frame is the innermost of a memory that has the variable. -/
structure Owns (memory : Memory) (name : String) (old : Value) (inner : List Frame)
    (owner : Frame) (outer : List Frame) : Prop where
  frames : memory.frames = inner ++ owner :: outer
  free : ∀ frame ∈ inner, frame.get? name = none
  holds : owner.get? name = some old

theorem exists_owns (held : memory.lookup? name = some old) :
    ∃ inner owner outer, Owns memory name old inner owner outer := by
  rcases List.findSome?_eq_some_iff.mp held with ⟨inner, owner, outer, frames, holds, free⟩
  exact ⟨inner, owner, outer, frames, free, holds⟩

namespace Owns

theorem lookup? (owns : Owns memory name old inner owner outer) :
    memory.lookup? name = some old :=
  List.findSome?_eq_some_iff.mpr ⟨inner, owner, outer, owns.frames, owns.holds, owns.free⟩

/-- A variable is changed in the frame that owns it, and nowhere else. -/
theorem update (owns : Owns memory name old inner owner outer) (new : Value) :
    Owns (memory.update name new) name new inner (owner.insert name new) outer := by
  have present : owner.contains name = true := by
    rw [Bindings.contains, owns.holds]
    rfl
  refine ⟨frames_update ?_, owns.free, Bindings.get?_insert_self owner name new⟩
  rw [owns.frames, replaceIn_append owns.free, replaceIn, if_pos present]
  rfl

theorem update_update (owns : Owns memory name old inner owner outer) (new : Value) :
    (memory.update name new).update name old = memory := by
  apply eq_of_frames
  rw [((owns.update new).update old).frames, Bindings.insert_insert_of_get? owns.holds,
    owns.frames]

theorem names_update (owns : Owns memory name old inner owner outer) (new : Value) :
    (memory.update name new).frames.map Bindings.names = memory.frames.map Bindings.names := by
  have present : name ∈ owner.names := by
    rw [Bindings.mem_names_iff, owns.holds]
    rfl
  rw [(owns.update new).frames, owns.frames, List.map_append, List.map_append, List.map_cons,
    List.map_cons, Bindings.names_insert_of_mem new present]

end Owns

end Memory

/-! ## Slots -/

namespace Place

/-- The coordinates of a place inside its variable. -/
def coordinates : Place → List Int64
  | .var _ => []
  | .slot _ coordinates => coordinates

/-- The places are in different variables, or their coordinates differ at some position. -/
def Apart (first second : Place) : Prop :=
  first.name ≠ second.name ∨ Diverge first.coordinates second.coordinates

end Place

namespace Memory

variable {memory after : Memory} {name : String} {coordinates : List Int64}

theorem get_of_lookup? {place : Place} {value : Value}
    (held : memory.lookup? place.name = some value) :
    memory.get place = value.read place.coordinates := by
  rw [get, held]
  cases place <;> rfl

theorem get_of_unbound {place : Place} (free : memory.lookup? place.name = none) :
    memory.get place = .error (.undefinedVariable place.name) := by
  rw [get, free]

theorem set_slot_of_lookup? (indexed : coordinates ≠ []) {array : Value}
    (held : memory.lookup? name = some array) (value : Value) :
    memory.set (.slot name coordinates) value =
      (array.write value coordinates >>= fun changed => .ok (memory.update name changed)) := by
  rw [set, store, writeSlot_outcome indexed held]

theorem set_slot_of_unbound (indexed : coordinates ≠ []) (free : memory.lookup? name = none)
    (value : Value) :
    memory.set (.slot name coordinates) value = .error (.undefinedVariable name) := by
  rw [set, store, writeSlot_of_unbound indexed free]
  rfl

/-- What the write of a slot has done to a memory. -/
structure Overwritten (before : Memory) (name : String) (coordinates : List Int64)
    (old new : Value) (after : Memory) : Prop where
  reads : after.get (.slot name coordinates) = .ok new
  elsewhere : ∀ place : Place, (Place.slot name coordinates).Apart place →
    after.get place = before.get place
  owner : ∃ inner owner outer array changed, Owns before name array inner owner outer ∧
    after.frames = inner ++ owner.insert name changed :: outer
  depth : after.depth = before.depth
  names : after.frames.map Bindings.names = before.frames.map Bindings.names
  undone : after.set (.slot name coordinates) old = .ok before

/-- A slot that can be read can be written. -/
theorem set_slot_of_get {old : Value} (indexed : coordinates ≠ [])
    (reads : memory.get (.slot name coordinates) = .ok old) (new : Value) :
    ∃ after, memory.set (.slot name coordinates) new = .ok after ∧
      Overwritten memory name coordinates old new after := by
  cases held : memory.lookup? name with
  | none =>
      rw [get_of_unbound held] at reads
      cases reads
  | some array =>
      rw [get_of_lookup? held, Place.coordinates] at reads
      rcases array.exists_rewritten reads new with ⟨changed, rewritten⟩
      rcases exists_owns held with ⟨inner, owner, outer, owns⟩
      have owned := owns.update changed
      refine ⟨memory.update name changed, ?_, ?_, ?_, ?_, ?_, ?_, ?_⟩
      · rw [set_slot_of_lookup? indexed held, rewritten.writes, ok_bind]
      · rw [get_of_lookup? owned.lookup?]
        exact rewritten.reads
      · intro place apart
        by_cases other : place.name = name
        · have diverge : Diverge coordinates place.coordinates :=
            apart.resolve_left fun different => different other.symm
          have holds := owned.lookup?
          rw [← other] at held
          rw [get_of_lookup? held, get_of_lookup? (by rw [other, holds]),
            rewritten.elsewhere _ diverge]
        · exact (update_spares other).get
      · exact ⟨inner, owner, outer, array, changed, owns, owned.frames⟩
      · exact (memory.update_grows name changed).depth
      · exact owns.names_update changed
      · rw [set_slot_of_lookup? indexed owned.lookup?, rewritten.undone, ok_bind,
          owns.update_update]

/-- A slot that cannot be read cannot be written, for the same reason. -/
theorem set_slot_of_get_error {fault : Fault} (indexed : coordinates ≠ [])
    (failed : memory.get (.slot name coordinates) = .error fault) (new : Value) :
    memory.set (.slot name coordinates) new = .error fault := by
  cases held : memory.lookup? name with
  | none =>
      rw [get_of_unbound held] at failed
      cases failed
      exact set_slot_of_unbound indexed held new
  | some array =>
      rw [get_of_lookup? held, Place.coordinates] at failed
      rw [set_slot_of_lookup? indexed held, Value.write_of_read_error failed, error_bind]

theorem set_slot_eq_error_iff {fault : Fault} (indexed : coordinates ≠ []) (new : Value) :
    memory.set (.slot name coordinates) new = .error fault ↔
      memory.get (.slot name coordinates) = .error fault := by
  constructor
  · intro failed
    cases reads : memory.get (.slot name coordinates) with
    | error other =>
        rw [set_slot_of_get_error indexed reads] at failed
        cases failed
        rfl
    | ok old =>
        rcases set_slot_of_get indexed reads new with ⟨after, done, _⟩
        rw [done] at failed
        cases failed
  · intro failed
    exact set_slot_of_get_error indexed failed new

end Memory

/-- An assignment to a slot that cannot be read fails for that reason. -/
theorem Stmt.assigned_of_get_error {memory : Memory} {name : String} {coordinates : List Int64}
    {target expr : Expr} {value : Value} {fault : Fault} (indexed : coordinates ≠ [])
    (failed : memory.get (.slot name coordinates) = .error fault)
    (located : target.place memory = .ok (.slot name coordinates))
    (evaluated : expr.eval memory = .ok value) (op : AssignOp) :
    Stmt.assigned memory target op expr = .error fault := by
  cases op with
  | plain =>
      rw [Stmt.assigned_eq_insert, located, evaluated, ok_bind, ok_bind]
      exact Memory.set_slot_of_get_error indexed failed value
  | compound arith =>
      rw [Stmt.assigned_eq_set, located, evaluated, ok_bind, ok_bind, failed, error_bind]

namespace Memory

/--
A slot is written just if it can be read, and only the slot changes.  A write that fails
does so for the reason that the read has; it leaves the memory as it was, and so does the
statement that it was part of.
-/
theorem slot_written_iff_read (memory : Memory) (name : String) {coordinates : List Int64}
    (indexed : coordinates ≠ []) (value : Value) :
    memory.insert (.slot name coordinates) value = memory.set (.slot name coordinates) value ∧
      (∀ fault, memory.set (.slot name coordinates) value = .error fault ↔
        memory.get (.slot name coordinates) = .error fault) ∧
      (∀ fault, memory.get (.slot name coordinates) = .error fault →
        memory.store (.slot name coordinates) value = ⟨some fault, memory⟩) ∧
      (∀ fault, memory.get (.slot name coordinates) = .error fault →
        ∀ (allowance : Nat) (transcript : Transcript) (span : Span) (target expr : Expr)
          (op : AssignOp), target.place memory = .ok (.slot name coordinates) →
          expr.eval memory = .ok value →
          (Stmt.assign span target op expr).exec allowance ⟨memory, transcript⟩ =
            some (.failed fault span.line ⟨memory, transcript⟩)) ∧
      ∀ old, memory.get (.slot name coordinates) = .ok old →
        ∃ after, memory.set (.slot name coordinates) value = .ok after ∧
          Overwritten memory name coordinates old value after := by
  refine ⟨rfl, ?_, ?_, ?_, ?_⟩
  · intro fault
    exact set_slot_eq_error_iff indexed value
  · intro fault failed
    have faulty := set_slot_of_get_error indexed failed value
    exact (memory.store_atomic _ value).eq_of_outcome_error faulty
  · intro fault failed allowance transcript span target expr op located evaluated
    have faulty := Stmt.assigned_of_get_error indexed failed located evaluated op
    rw [Stmt.exec_eq, Stmt.unwrapped]
    simp only [faulty]
  · intro old reads
    exact set_slot_of_get indexed reads value

/-- Two frames, of which the inner one hides a variable of the outer. -/
def shadowing : Memory :=
  (root.bind "a" (.array [.array [.int 7], .array [.int 8]])).push
    (Bindings.empty.insert "a" (.array [.array [.int 1, .int 2], .int 3]))

/-- A slot of the inner array is written, and one that only the hidden array has is not. -/
theorem slot_written_shadowing :
    (∃ after, shadowing.set (.slot "a" [0, 1]) (.string "x") = .ok after ∧
      Overwritten shadowing "a" [0, 1] (.int 2) (.string "x") after) ∧
      shadowing.set (.slot "a" [1, 0]) (.int 5) =
        .error (.wrongType "vector or matrix" "int") :=
  ⟨(slot_written_iff_read shadowing "a" (List.cons_ne_nil 0 [1]) (.string "x")).2.2.2.2
      (.int 2) rfl,
    ((slot_written_iff_read shadowing "a" (List.cons_ne_nil 1 [0]) (.int 5)).2.1 _).mpr rfl⟩

end Memory

end MatrixScript
