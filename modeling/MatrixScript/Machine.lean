import MatrixScript.Memory
import MatrixScript.Transcript

/-!
# Machines

The state of a running program: its memory and what it has printed.  A statement
ends with a flow, which says where to go on.
-/

namespace MatrixScript

/-- The state of a running program. -/
structure Machine where
  memory : Memory
  transcript : Transcript

namespace Machine

/-- A machine before any program, which prints to the given transcript. -/
def start (transcript : Transcript) : Machine := ⟨.root, transcript⟩

/-- The machine with an empty frame on top. -/
def enter (machine : Machine) : Machine :=
  { machine with memory := machine.memory.push .empty }

/-- The machine without its top frame. -/
def leave (machine : Machine) : Machine :=
  { machine with memory := machine.memory.pop }

end Machine

/-- How a statement ended. -/
inductive Flow where
  | normal
  | «break»
  | «continue»
  | return (value : Option Value)

/-- The end of a statement: a flow or an error, and the machine it leaves. -/
structure Ending where
  flow : Except RuntimeError Flow
  machine : Machine

namespace Ending

/-- A statement that ended with a flow. -/
def done (flow : Flow) (machine : Machine) : Ending := ⟨.ok flow, machine⟩

/-- A statement that met a fault; no line is known yet. -/
def raised (fault : Fault) (machine : Machine) : Ending := ⟨.error ⟨fault, none⟩, machine⟩

/-- The ending with a line added to its error, unless the error has one already. -/
def atLine (line : Nat) (ending : Ending) : Ending :=
  { ending with flow := ending.flow.mapError fun error => error.atLine line }

end Ending

end MatrixScript
