import MatrixScript.Bindings
import MatrixScript.Value

/-!
# Memory

Memory is a stack of frames, each a table of variables.  The innermost frame is on
top, and there is always at least one frame.

A place is a variable or a slot inside the array that a variable holds.
-/

namespace MatrixScript

/-- The variables of one frame. -/
abbrev Frame := Bindings Value

/-- Something that can be assigned to. -/
inductive Place where
  | var (name : String)
  | slot (name : String) (coordinates : List Int64)
deriving DecidableEq, Repr

/-- The variable that owns a place. -/
def Place.name : Place → String
  | .var name | .slot name _ => name

/-- A stack of at least one frame. -/
structure Memory where
  top : Frame
  below : List Frame

namespace Memory

/-- A memory with a single frame, which holds nothing. -/
def root : Memory := ⟨.empty, []⟩

/-- The frames from the innermost out. -/
def frames (memory : Memory) : List Frame :=
  memory.top :: memory.below

/-- The number of frames. -/
def depth (memory : Memory) : Nat :=
  memory.frames.length

/-- Put a frame on top. -/
def push (memory : Memory) (frame : Frame) : Memory :=
  ⟨frame, memory.frames⟩

/-- Take the top frame off, unless it is the only one. -/
def pop? (memory : Memory) : Option (Frame × Memory) :=
  match memory.below with
  | [] => none
  | next :: rest => some (memory.top, ⟨next, rest⟩)

/-- The memory without its top frame; the only frame stays. -/
def pop (memory : Memory) : Memory :=
  match memory.pop? with
  | none => memory
  | some (_, rest) => rest

/-- The value of a variable in the innermost frame that has it. -/
def lookup? (memory : Memory) (name : String) : Option Value :=
  memory.frames.findSome? fun frame => frame.get? name

/-- Give a variable a value in the top frame. -/
def bind (memory : Memory) (name : String) (value : Value) : Memory :=
  { memory with top := memory.top.insert name value }

/-- Change a variable in the innermost of some frames that has it. -/
def replaceIn (name : String) (value : Value) : List Frame → Option (List Frame)
  | [] => none
  | frame :: rest =>
      if frame.contains name then some (frame.insert name value :: rest)
      else (replaceIn name value rest).map (frame :: ·)

/-- Change a variable where it lives, or bind it in the top frame if it lives nowhere. -/
def update (memory : Memory) (name : String) (value : Value) : Memory :=
  match replaceIn name value memory.frames with
  | some (top :: below) => ⟨top, below⟩
  | _ => memory.bind name value

/-- Replace the value in a slot of an array, in the innermost of some frames that has the array. -/
def replaceSlotIn (name : String) (coordinates : List Int64) (value : Value) :
    List Frame → Change (List Frame)
  | [] => ⟨some (.undefinedVariable name), []⟩
  | frame :: rest =>
      match frame.get? name with
      | some array =>
          let inside := array.replace value coordinates
          ⟨inside.fault?, frame.insert name inside.left :: rest⟩
      | none =>
          let outside := replaceSlotIn name coordinates value rest
          ⟨outside.fault?, frame :: outside.left⟩

/-- The memory with other frames, if there are any. -/
def withFrames (memory : Memory) : List Frame → Memory
  | [] => memory
  | top :: below => ⟨top, below⟩

/-- Replace the value in a slot of an array, where the array lives. -/
def writeSlot (memory : Memory) (name : String) (coordinates : List Int64) (value : Value) :
    Change Memory :=
  match coordinates with
  | [] => ⟨none, memory.update name value⟩
  | _ =>
      let written := replaceSlotIn name coordinates value memory.frames
      ⟨written.fault?, memory.withFrames written.left⟩

/-- Declare a variable in the top frame; a slot is written where its array lives. -/
def declare (memory : Memory) (place : Place) (value : Value) : Change Memory :=
  match place with
  | .var name => ⟨none, memory.bind name value⟩
  | .slot name coordinates => memory.writeSlot name coordinates value

/-- Overwrite a place where it lives; a variable that lives nowhere is declared. -/
def store (memory : Memory) (place : Place) (value : Value) : Change Memory :=
  match place with
  | .var name => ⟨none, memory.update name value⟩
  | .slot name coordinates => memory.writeSlot name coordinates value

/-- The memory in which a place is declared. -/
def insert (memory : Memory) (place : Place) (value : Value) : Except Fault Memory :=
  (memory.declare place value).outcome

/-- The memory in which a place is overwritten. -/
def set (memory : Memory) (place : Place) (value : Value) : Except Fault Memory :=
  (memory.store place value).outcome

/-- The value at a place. -/
def get (memory : Memory) (place : Place) : Except Fault Value :=
  match memory.lookup? place.name with
  | none => .error (.undefinedVariable place.name)
  | some value =>
      match place with
      | .var _ => .ok value
      | .slot _ coordinates => value.read coordinates

/-- All variables of some frames as one table, in which inner frames hide outer ones. -/
def flatten : List Frame → Frame
  | [] => .empty
  | frame :: rest =>
      frame.entries.foldl (fun table entry => table.insert entry.1 entry.2) (flatten rest)

/-- Every variable that can be read, with its value, in the order of the names. -/
def visible (memory : Memory) : List (String × Value) :=
  (flatten memory.frames).entries

end Memory

end MatrixScript
