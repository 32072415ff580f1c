import MatrixScript.Memory
import MatrixScript.Proofs.Bindings
import MatrixScript.Proofs.Value.Parts

/-!
# Names in memory

What a variable holds after a change, and how a change of memory acts on the names that
its frames bind.

`Memory.Grows` compares two memories by the names in their frames alone: the frames
below the top bind the same names, and the top frame has lost none.  Every write lets
a memory grow, and a frame that was put on top can be taken off again.

`Memory.Spares` compares them at a single name: every frame says of it what it said
before.  A write spares all names but that of its place.

`Memory.All` is a condition on the values of all variables, hidden ones too.

Slots are written in place, in the frame that has their variable.  A write that fails leaves
the memory as it was: `Memory.store_atomic`.
-/

namespace MatrixScript

/-! ## Look-up -/

namespace Memory

theorem lookup?_eq (memory : Memory) (name : String) :
    memory.lookup? name =
      (memory.top.get? name).or (memory.below.findSome? fun frame => frame.get? name) := by
  simp only [lookup?, frames, List.findSome?_cons]
  cases memory.top.get? name <;> rfl

/-- A variable that was bound holds its new value, and the others hold what they did. -/
theorem lookup?_bind (memory : Memory) (name other : String) (value : Value) :
    (memory.bind name value).lookup? other =
      if other = name then some value else memory.lookup? other := by
  rw [lookup?_eq, lookup?_eq, bind, Bindings.get?_insert]
  split <;> rfl

theorem isSome_lookup?_iff (memory : Memory) (name : String) :
    (memory.lookup? name).isSome ↔
      name ∈ memory.top.names ∨ ∃ names ∈ memory.below.map Bindings.names, name ∈ names := by
  rw [lookup?, List.findSome?_isSome_iff]
  simp [frames, Bindings.mem_names_iff]

theorem get?_foldl_insert (entries : List (String × Value)) (table : Frame) (name : String) :
    (entries.foldl (fun table entry => table.insert entry.1 entry.2) table).get? name =
      entries.foldl (fun held entry => if name = entry.1 then some entry.2 else held)
        (table.get? name) := by
  induction entries generalizing table with
  | nil => rfl
  | cons head tail ih => rw [List.foldl_cons, List.foldl_cons, ih, Bindings.get?_insert]

/-- The table of all variables has what a search through the frames finds. -/
theorem get?_flatten (frames : List Frame) (name : String) :
    (flatten frames).get? name = Bindings.find? frames name := by
  induction frames with
  | nil => rfl
  | cons frame rest ih =>
      rw [flatten, get?_foldl_insert, ih, Bindings.foldl_entries frame.ordered,
        Bindings.find?_cons]
      rfl

/-- The variables that can be read are those that have a value. -/
theorem mem_visible_iff (memory : Memory) (name : String) :
    name ∈ memory.visible.map Prod.fst ↔ (memory.lookup? name).isSome := by
  have listed := Bindings.mem_names_iff (flatten memory.frames) name
  rw [get?_flatten] at listed
  exact listed

/-! ## Growth -/

/-- The top frame has kept its names, and the frames below bind the names they did. -/
structure Grows (before after : Memory) : Prop where
  top : before.top.names ⊆ after.top.names
  below : after.below.map Bindings.names = before.below.map Bindings.names

namespace Grows

theorem refl (memory : Memory) : memory.Grows memory :=
  ⟨fun _ member => member, rfl⟩

theorem trans {first second third : Memory} (start : first.Grows second)
    (rest : second.Grows third) : first.Grows third :=
  ⟨List.Subset.trans start.top rest.top, rest.below.trans start.below⟩

/-- A name that had a value still has one. -/
theorem isSome_lookup? {before after : Memory} (grows : before.Grows after) {name : String}
    (bound : (before.lookup? name).isSome) : (after.lookup? name).isSome := by
  rw [isSome_lookup?_iff] at bound ⊢
  rw [grows.below]
  rcases bound with inTop | inBelow
  · exact .inl (grows.top inTop)
  · exact .inr inBelow

/-- What grew on top of a frame leaves the memory below with its names. -/
theorem pop {before after : Memory} {frame : Frame} (grows : (before.push frame).Grows after) :
    before.Grows after.pop := by
  have below := grows.below
  rcases after with ⟨top, _ | ⟨next, rest⟩⟩
  · simp [push, frames] at below
  · rw [push, frames, List.map_cons, List.map_cons, List.cons.injEq] at below
    rcases below with ⟨nextNames, restNames⟩
    constructor
    · show before.top.names ⊆ next.names
      rw [nextNames]
      exact List.Subset.refl _
    · exact restNames

theorem depth {before after : Memory} (grows : before.Grows after) :
    after.depth = before.depth := by
  have lengths := congrArg List.length grows.below
  rw [List.length_map, List.length_map] at lengths
  exact congrArg (· + 1) lengths

end Grows

theorem bind_grows (memory : Memory) (name : String) (value : Value) :
    memory.Grows (memory.bind name value) := by
  refine ⟨?_, rfl⟩
  intro other member
  exact (Bindings.mem_names_insert _ _ _ _).mpr (.inr member)

theorem replaceIn_names {name : String} {value : Value} {frames changed : List Frame}
    (found : replaceIn name value frames = some changed) :
    changed.map Bindings.names = frames.map Bindings.names := by
  induction frames generalizing changed with
  | nil => cases found
  | cons frame rest ih =>
      rw [replaceIn] at found
      split at found
      · rename_i present
        cases found
        rw [Bindings.contains, ← Bindings.mem_names_iff] at present
        rw [List.map_cons, Bindings.names_insert_of_mem value present, List.map_cons]
      · rcases Option.map_eq_some_iff.mp found with ⟨changedRest, foundRest, rfl⟩
        rw [List.map_cons, List.map_cons, ih foundRest]

theorem update_grows (memory : Memory) (name : String) (value : Value) :
    memory.Grows (memory.update name value) := by
  rw [update]
  split
  · rename_i top below found
    have names := replaceIn_names found
    rw [frames, List.map_cons, List.map_cons, List.cons.injEq] at names
    exact ⟨fun other member => by rw [names.1]; exact member, names.2⟩
  · exact memory.bind_grows name value

/-! ## Variables that have a value -/

theorem replaceIn_of_found {name : String} {old : Value} {frames : List Frame}
    (found : Bindings.find? frames name = some old) (value : Value) :
    ∃ changed, replaceIn name value frames = some changed := by
  induction frames with
  | nil => cases found
  | cons frame rest ih =>
      rw [replaceIn]
      split
      · exact ⟨_, rfl⟩
      · rename_i elsewhere
        have free := (Bindings.not_contains_iff frame name).mp elsewhere
        rw [Bindings.find?_of_none free] at found
        rcases ih found with ⟨changed, replaced⟩
        rw [replaced]
        exact ⟨_, rfl⟩

theorem replaceIn_of_held {name : String} {value : Value} {frames : List Frame}
    (held : Bindings.find? frames name = some value) :
    replaceIn name value frames = some frames := by
  induction frames with
  | nil => cases held
  | cons frame rest ih =>
      rw [replaceIn]
      split
      · rename_i present
        rcases Option.isSome_iff_exists.mp present with ⟨here, found⟩
        rw [Bindings.find?_of_some found] at held
        cases held
        rw [Bindings.insert_of_get? found]
      · rename_i elsewhere
        have free := (Bindings.not_contains_iff frame name).mp elsewhere
        rw [Bindings.find?_of_none free] at held
        rw [ih held]
        rfl

/-- A variable that has a value is changed in the frame that owns it. -/
theorem frames_update {memory : Memory} {name : String} {value : Value} {changed : List Frame}
    (replaced : replaceIn name value memory.frames = some changed) :
    (memory.update name value).frames = changed := by
  have names := replaceIn_names replaced
  rw [update, replaced]
  cases changed with
  | nil => cases names
  | cons top below => rfl

/-- A variable that is given the value it has already leaves the memory as it was. -/
theorem update_of_lookup? {memory : Memory} {name : String} {value : Value}
    (held : memory.lookup? name = some value) : memory.update name value = memory := by
  rw [update, replaceIn_of_held held]
  rfl

/-! ## Slots -/

section Slots

variable {memory after : Memory} {name : String} {coordinates : List Int64} {array value : Value}

/-- Without the variable there is nothing to write to, and the frames stay. -/
theorem replaceSlotIn_of_free {frames : List Frame} (free : Bindings.find? frames name = none) :
    replaceSlotIn name coordinates value frames =
      ⟨some (.undefinedVariable name), frames⟩ := by
  induction frames with
  | nil => rfl
  | cons frame rest ih =>
      rw [Bindings.find?_cons, Option.or_eq_none_iff] at free
      rw [replaceSlotIn, free.1]
      dsimp only
      rw [ih free.2]

/-- The slot is written in the frame in which the variable would be changed as a whole. -/
theorem replaceSlotIn_of_found {frames : List Frame}
    (found : Bindings.find? frames name = some array) :
    ∃ changed, replaceIn name (array.replace value coordinates).left frames = some changed ∧
      replaceSlotIn name coordinates value frames =
        ⟨(array.replace value coordinates).fault?, changed⟩ := by
  induction frames with
  | nil => cases found
  | cons frame rest ih =>
      rw [replaceIn, replaceSlotIn]
      cases here : frame.get? name with
      | some held =>
          rw [Bindings.find?_of_some here] at found
          cases found
          have present : frame.contains name = true := by
            rw [Bindings.contains, here]
            rfl
          exact ⟨_, if_pos present, rfl⟩
      | none =>
          rw [Bindings.find?_of_none here] at found
          rcases ih found with ⟨changed, replaced, written⟩
          refine ⟨frame :: changed, ?_, ?_⟩
          · rw [if_neg ((Bindings.not_contains_iff frame name).mpr here), replaced]
            rfl
          · dsimp only
            rw [written]

/-- A slot is written in the array that its variable holds, where the variable lives. -/
theorem writeSlot_of_lookup? (indexed : coordinates ≠ []) (held : memory.lookup? name = some array)
    (value : Value) :
    memory.writeSlot name coordinates value =
      ⟨(array.replace value coordinates).fault?,
        memory.update name (array.replace value coordinates).left⟩ := by
  rcases replaceSlotIn_of_found held with ⟨changed, replaced, written⟩
  have names := replaceIn_names replaced
  rw [writeSlot, written, update, replaced]
  · cases changed with
    | nil => cases names
    | cons top below => rfl
  · exact indexed

theorem writeSlot_of_unbound (indexed : coordinates ≠ []) (free : memory.lookup? name = none)
    (value : Value) :
    memory.writeSlot name coordinates value = ⟨some (.undefinedVariable name), memory⟩ := by
  rw [writeSlot, replaceSlotIn_of_free free]
  · rfl
  · exact indexed

/-- A slot that cannot be written leaves the memory as it was. -/
theorem writeSlot_atomic (memory : Memory) (name : String) (coordinates : List Int64)
    (value : Value) : (memory.writeSlot name coordinates value).Atomic memory := by
  by_cases all : coordinates = []
  · subst all
    rintro fault ⟨⟩
  · cases held : memory.lookup? name with
    | none =>
        rw [writeSlot_of_unbound all held]
        intro fault failed
        rfl
    | some array =>
        rw [writeSlot_of_lookup? all held]
        intro fault failed
        show memory.update name _ = memory
        rw [array.replace_atomic value coordinates fault failed, update_of_lookup? held]

theorem declare_atomic (memory : Memory) (place : Place) (value : Value) :
    (memory.declare place value).Atomic memory := by
  cases place with
  | var name => rintro fault ⟨⟩
  | slot name coordinates => exact memory.writeSlot_atomic name coordinates value

theorem store_atomic (memory : Memory) (place : Place) (value : Value) :
    (memory.store place value).Atomic memory := by
  cases place with
  | var name => rintro fault ⟨⟩
  | slot name coordinates => exact memory.writeSlot_atomic name coordinates value

theorem writeSlot_outcome (indexed : coordinates ≠ []) (held : memory.lookup? name = some array)
    (value : Value) :
    (memory.writeSlot name coordinates value).outcome =
      (array.write value coordinates >>= fun changed => .ok (memory.update name changed)) := by
  rw [writeSlot_of_lookup? indexed held, Value.write]
  rcases array.replace value coordinates with ⟨_ | fault, left⟩ <;> rfl

theorem writeSlot_of_ne_nil (notAll : coordinates ≠ [])
    (written : (memory.writeSlot name coordinates value).outcome = .ok after) :
    ∃ array changed, memory.lookup? name = some array ∧
      array.write value coordinates = .ok changed ∧ after = memory.update name changed := by
  cases held : memory.lookup? name with
  | none =>
      rw [writeSlot_of_unbound notAll held] at written
      cases written
  | some array =>
      rw [writeSlot_outcome notAll held] at written
      rcases exists_of_bind written with ⟨changed, wrote, done⟩
      cases done
      exact ⟨array, changed, rfl, wrote, rfl⟩

/-- Whatever is written into a slot, one variable is changed where it lives. -/
theorem exists_of_writeSlot
    (written : (memory.writeSlot name coordinates value).outcome = .ok after) :
    ∃ changed, after = memory.update name changed := by
  by_cases all : coordinates = []
  · subst all
    cases written
    exact ⟨value, rfl⟩
  · rcases writeSlot_of_ne_nil all written with ⟨_, changed, _, _, same⟩
    exact ⟨changed, same⟩

theorem writeSlot_grows
    (written : (memory.writeSlot name coordinates value).outcome = .ok after) :
    memory.Grows after := by
  rcases exists_of_writeSlot written with ⟨changed, rfl⟩
  exact memory.update_grows name changed

theorem insert_grows {memory after : Memory} {place : Place} {value : Value}
    (inserted : memory.insert place value = .ok after) : memory.Grows after := by
  cases place with
  | var name =>
      cases inserted
      exact memory.bind_grows name value
  | slot name coordinates => exact writeSlot_grows inserted

theorem set_grows {memory after : Memory} {place : Place} {value : Value}
    (overwritten : memory.set place value = .ok after) : memory.Grows after := by
  cases place with
  | var name =>
      cases overwritten
      exact memory.update_grows name value
  | slot name coordinates => exact writeSlot_grows overwritten

end Slots

/-! ## Frames that are taken off -/

theorem frames_pop {memory : Memory} (notLast : memory.below ≠ []) :
    memory.pop.frames = memory.below := by
  rcases memory with ⟨top, _ | ⟨next, rest⟩⟩
  · exact absurd rfl notLast
  · rfl

/-- What is the same below a new frame is the same once that frame is gone. -/
theorem map_frames_pop {α : Type} {view : Frame → α} {before after : Memory}
    (same : after.below.map view = before.frames.map view) :
    after.pop.frames.map view = before.frames.map view := by
  rw [frames_pop]
  · exact same
  · intro none
    rw [none] at same
    cases same

/-! ## What a write leaves alone -/

/-- Every frame says of the name what it said before. -/
def Spares (before after : Memory) (name : String) : Prop :=
  after.frames.map (fun frame => frame.get? name) =
    before.frames.map (fun frame => frame.get? name)

namespace Spares

variable {name : String}

theorem refl (memory : Memory) (name : String) : memory.Spares memory name := rfl

theorem trans {first second third : Memory} (start : first.Spares second name)
    (rest : second.Spares third name) : first.Spares third name :=
  Eq.trans rest start

theorem below {before after : Memory} (spares : before.Spares after name) :
    after.below.map (fun frame => frame.get? name) =
      before.below.map (fun frame => frame.get? name) :=
  (List.cons.inj spares).2

/-- Nothing inside a variable that is spared has changed. -/
theorem get {before after : Memory} {place : Place} (spares : before.Spares after place.name) :
    after.get place = before.get place := by
  have value : after.lookup? place.name = before.lookup? place.name := by
    have found := congrArg (fun views => views.findSome? id) spares
    simpa [lookup?, List.findSome?_map, Function.comp_def] using found
  rw [Memory.get, Memory.get, value]

end Spares

variable {memory : Memory} {name other : String} {value : Value}

theorem bind_spares (different : other ≠ name) : memory.Spares (memory.bind name value) other := by
  have top := Bindings.get?_insert memory.top name other value
  rw [if_neg different] at top
  exact congrArg (· :: _) top

theorem replaceIn_spares {frames changed : List Frame} (different : other ≠ name)
    (found : replaceIn name value frames = some changed) :
    changed.map (fun frame => frame.get? other) = frames.map (fun frame => frame.get? other) := by
  induction frames generalizing changed with
  | nil => cases found
  | cons frame rest ih =>
      rw [replaceIn] at found
      split at found
      · cases found
        rw [List.map_cons, List.map_cons, Bindings.get?_insert, if_neg different]
      · rcases Option.map_eq_some_iff.mp found with ⟨changedRest, foundRest, rfl⟩
        rw [List.map_cons, List.map_cons, ih foundRest]

theorem update_spares (different : other ≠ name) :
    memory.Spares (memory.update name value) other := by
  rw [update]
  split
  · rename_i top below found
    exact replaceIn_spares different found
  · exact bind_spares different

/-- A variable of the top frame is changed there. -/
theorem update_eq_bind (present : name ∈ memory.top.names) :
    memory.update name value = memory.bind name value := by
  have here : memory.top.contains name = true := (Bindings.mem_names_iff _ _).mp present
  rw [update, frames, replaceIn, if_pos here]
  rfl

theorem writeSlot_spares {after : Memory} {coordinates : List Int64} (different : other ≠ name)
    (written : (memory.writeSlot name coordinates value).outcome = .ok after) :
    memory.Spares after other := by
  rcases exists_of_writeSlot written with ⟨changed, rfl⟩
  exact update_spares different

theorem insert_spares {after : Memory} {place : Place} (different : other ≠ place.name)
    (inserted : memory.insert place value = .ok after) : memory.Spares after other := by
  cases place with
  | var name =>
      cases inserted
      exact bind_spares different
  | slot name coordinates => exact writeSlot_spares different inserted

theorem set_spares {after : Memory} {place : Place} (different : other ≠ place.name)
    (overwritten : memory.set place value = .ok after) : memory.Spares after other := by
  cases place with
  | var name =>
      cases overwritten
      exact update_spares different
  | slot name coordinates => exact writeSlot_spares different overwritten

/-! ## What all variables hold -/

/-- Every variable in every frame has a good value. -/
def All (good : String → Value → Prop) (memory : Memory) : Prop :=
  ∀ frame ∈ memory.frames, ∀ name value, frame.get? name = some value → good name value

namespace All

variable {good : String → Value → Prop}

theorem root : Memory.root.All good := by
  intro frame member name value held
  cases List.mem_singleton.mp member
  cases held

theorem lookup? (all : memory.All good) (held : memory.lookup? name = some value) :
    good name value := by
  rcases List.exists_of_findSome?_eq_some held with ⟨frame, member, found⟩
  exact all frame member name value found

theorem push_empty (all : memory.All good) : (memory.push .empty).All good := by
  intro frame member
  rcases List.mem_cons.mp member with rfl | below
  · intro name value held
    cases held
  · exact all frame below

theorem pop (all : memory.All good) : memory.pop.All good := by
  rcases memory with ⟨top, _ | ⟨next, rest⟩⟩
  · exact all
  · exact fun frame member => all frame (List.mem_cons_of_mem _ member)

theorem insert {frame : Frame}
    (all : ∀ name value, frame.get? name = some value → good name value)
    (new : good name value) (other : String) (found : Value)
    (held : (frame.insert name value).get? other = some found) : good other found := by
  by_cases same : other = name
  · subst same
    rw [Bindings.get?_insert_self] at held
    cases held
    exact new
  · rw [Bindings.get?_insert_of_ne same] at held
    exact all other found held

theorem bind (all : memory.All good) (new : good name value) :
    (memory.bind name value).All good := by
  intro frame member
  rcases List.mem_cons.mp member with rfl | below
  · exact insert (all memory.top List.mem_cons_self) new
  · exact all frame (List.mem_cons_of_mem _ below)

theorem replaceIn {frames changed : List Frame}
    (all : ∀ frame ∈ frames, ∀ name value, frame.get? name = some value → good name value)
    (new : good name value) (replaced : replaceIn name value frames = some changed) :
    ∀ frame ∈ changed, ∀ name value, frame.get? name = some value → good name value := by
  induction frames generalizing changed with
  | nil => cases replaced
  | cons frame rest ih =>
      rw [List.forall_mem_cons] at all
      rw [Memory.replaceIn] at replaced
      split at replaced
      · cases replaced
        exact List.forall_mem_cons.mpr ⟨insert all.1 new, all.2⟩
      · rcases Option.map_eq_some_iff.mp replaced with ⟨changedRest, replacedRest, rfl⟩
        exact List.forall_mem_cons.mpr ⟨all.1, ih all.2 replacedRest⟩

theorem update (all : memory.All good) (new : good name value) :
    (memory.update name value).All good := by
  rw [Memory.update]
  split
  · rename_i top below replaced
    exact replaceIn all new replaced
  · exact all.bind new

end All

end Memory

end MatrixScript
