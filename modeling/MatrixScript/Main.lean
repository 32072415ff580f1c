import MatrixScript.CommandLine

/-!
# The program

Reads files and standard input, and prints what the command line and the prompt have to
say.
-/

namespace MatrixScript

/-- Print a report. -/
def Report.emit (report : Report) : IO UInt32 := do
  for note in report.notes do
    IO.eprintln note
  IO.print report.out
  IO.eprint report.err
  return report.status.toUInt32

/-- The next line of standard input; none at its end. -/
def nextLine : IO (Option InputLine) := do
  try
    let line ← (← IO.getStdin).getLine
    return if line.isEmpty then none else some (.text line)
  catch _ =>
    return some .malformed

/-- Say what the prompt has to say, and take the next line. -/
partial def serve (prompt : Prompt) : IO Unit := do
  IO.print prompt.console.out
  IO.eprint prompt.console.err
  (← IO.getStdout).flush
  if prompt.open? then
    let waiting := { prompt with console := Console.empty }
    match ← nextLine with
    | none => serve waiting.close
    | some line =>
        match waiting.take Loop.ample line with
        | some next => serve next
        | none => IO.eprintln "Error: a loop did not end"

/-- The content of a file, if it can be read. -/
def content? (file : String) : IO (Option ByteArray) := do
  try
    return some (← IO.FS.readBinFile file)
  catch _ =>
    return none

/-- Carry out a command. -/
def Command.perform (command : Command) : IO UInt32 := do
  match command.file? with
  | none =>
      serve Prompt.start
      return 0
  | some file =>
      match command.report Loop.ample (← content? file) .empty with
      | some report => report.emit
      | none =>
          IO.eprintln "Error: a loop did not end"
          return 1

end MatrixScript

open MatrixScript in
/-- Do what the arguments ask for. -/
def main (arguments : List String) : IO UInt32 :=
  match Invocation.ofArguments arguments with
  | .command command => command.perform
  | .version => Report.version.emit
  | .help => Report.help.emit
  | .misuse => Report.misuse.emit
