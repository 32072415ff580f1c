import MatrixScript.Session
import MatrixScript.Text.Blank

/-!
# The interactive prompt

The prompt reads lines.  A line that begins with a colon is a command to the prompt
itself, any other is fed to a session.  What the prompt has to say goes to two places:
answers to the output, complaints to the error output.
-/

namespace MatrixScript

/-- Text for the output and for the error output. -/
structure Console where
  out : String
  err : String
deriving DecidableEq, Repr

namespace Console

/-- Nothing said yet. -/
def empty : Console := ⟨"", ""⟩

/-- Add text to the output. -/
def write (console : Console) (text : String) : Console :=
  { console with out := console.out ++ text }

/-- Add a line to the output. -/
def say (console : Console) (line : String) : Console :=
  console.write (line ++ "\n")

/-- Add a line to the error output. -/
def warn (console : Console) (line : String) : Console :=
  { console with err := console.err ++ line ++ "\n" }

end Console

/-- The commands of the prompt. -/
inductive PromptCommand where
  | quit
  | help
  | variables
  | clear
  | unknown
deriving DecidableEq, Repr

/-- A line of input, or bytes that are no text. -/
inductive InputLine where
  | text (line : String)
  | malformed
deriving DecidableEq, Repr

namespace InputLine

/-- Bytes as a line. -/
def ofBytes (bytes : List UInt8) : InputLine :=
  match String.fromUTF8? bytes.toByteArray with
  | some line => .text line
  | none => .malformed

/-- Cut an input at its line breaks; `current` holds the bytes of the line so far, reversed. -/
def split (current : List UInt8) : List UInt8 → List InputLine
  | [] => if current.isEmpty then [] else [ofBytes current.reverse]
  | byte :: rest =>
      if byte = 10 then ofBytes current.reverse :: split [] rest
      else split (byte :: current) rest

end InputLine

/-- The state of the prompt: its session, what it said, and whether it goes on. -/
structure Prompt where
  session : Session
  console : Console
  open? : Bool

namespace Prompt

/-- The lines that the prompt begins with. -/
def banner : String :=
  "MTX REPL v0.1.0\nType :help for help, :quit to exit.\n\n"

/-- The prompt before its first line. -/
def start : Prompt := ⟨.start, Console.empty.write banner, true⟩

/-- The lines of the help command. -/
def helpLines : List String :=
  ["MTX REPL Commands:",
    "  :help, :h, :?   Show this help",
    "  :vars, :v       List bound variables",
    "  :quit, :q       Exit the REPL",
    "  :clear          Clear the screen",
    "",
    "You can enter:",
    "  - Assignments: A = eye(3); A[0, 2] += 5;",
    "  - Output: print A', A .* A;",
    "  - Control flow: for i = 1:3 \x7b print i; \x7d",
    "",
    "Built-in functions:",
    "  zeros(n), zeros(r, c)   Matrix of zeros",
    "  ones(n), ones(r, c)     Matrix of ones",
    "  eye(n), eye(r, c)       Identity matrix"]

/-- The command that a line spells. -/
def command (line : String) : PromptCommand :=
  if line ∈ [":quit", ":q", ":exit"] then .quit
  else if line ∈ [":help", ":h", ":?"] then .help
  else if line ∈ [":vars", ":v"] then .variables
  else if line = ":clear" then .clear
  else .unknown

/-- One line for every variable that can be read. -/
def variableLines (session : Session) : List String :=
  session.machine.memory.visible.map fun entry => entry.1 ++ " = " ++ entry.2.text

/-- Say something. -/
def tell (prompt : Prompt) (change : Console → Console) : Prompt :=
  { prompt with console := change prompt.console }

/-- Say goodbye and stop. -/
def close (prompt : Prompt) : Prompt :=
  { prompt.tell (·.say "Goodbye!") with open? := false }

/-- Carry out a command. -/
def obey (prompt : Prompt) (line : String) : Prompt :=
  match command line with
  | .quit => prompt.close
  | .help => prompt.tell fun console => helpLines.foldl .say console
  | .variables => prompt.tell fun console => (variableLines prompt.session).foldl .say console
  | .clear => prompt.tell (·.write "\x1b[2J\x1b[1;1H")
  | .unknown =>
      prompt.tell fun console =>
        (console.say ("Unknown command: " ++ line)).say "Type :help for help."

/-- Say what became of a line. -/
def announce (reply : Reply) (console : Console) : Console :=
  match reply with
  | .done none => console
  | .done (some value) => console.say value.text
  | .malformed error => console.warn ("Syntax error: " ++ error.message)
  | .rejected diagnostics =>
      diagnostics.foldl (fun console diagnostic => console.warn diagnostic.textWithHint) console
  | .failed error => console.warn error.text

/-- The session with nothing printed. -/
def flushed (session : Session) : Session :=
  { session with
    machine := { session.machine with transcript := session.machine.transcript.clear } }

/-- Feed a line to the session, and say what it printed and what became of it. -/
def feed (allowance : Nat) (prompt : Prompt) (line : String) : Option Prompt :=
  (prompt.session.feed allowance line).map fun (reply, session) =>
    { prompt with
      session := flushed session
      console := announce reply (prompt.console.write session.machine.transcript.text) }

/-- Take a line of input. -/
def take (allowance : Nat) (prompt : Prompt) (input : InputLine) : Option Prompt :=
  match input with
  | .malformed =>
      some { prompt.tell (·.warn "Error: stream did not contain valid UTF-8") with
        open? := false }
  | .text text =>
      let line := Text.trimBlanks text
      if line.isEmpty then some prompt
      else if line.toList.head? = some ':' then some (prompt.obey line)
      else prompt.feed allowance line

/-- Take lines until the prompt stops or the input ends. -/
def takeAll (allowance : Nat) (prompt : Prompt) : List InputLine → Option Prompt
  | [] => some (if prompt.open? then prompt.close else prompt)
  | line :: rest =>
      if prompt.open? then do
        let next ← prompt.take allowance line
        next.takeAll allowance rest
      else some prompt

end Prompt

end MatrixScript
