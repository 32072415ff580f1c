import MatrixScript.Prompt
import MatrixScript.Stmt.Outline

/-!
# The command line

The commands check a source file, run it, show its tokens or its tree, or start the
interactive prompt.

`Invocation.ofArguments` understands the arguments, and `Command.report` carries out
a command on the content of its file.
-/

namespace MatrixScript

/-- What to do. -/
inductive Command where
  | check (file : String)
  | run (file : String) (checked : Bool)
  | parse (file : String)
  | tokens (file : String)
  | repl
deriving DecidableEq, Repr

/-- What the arguments ask for. -/
inductive Invocation where
  | command (command : Command)
  | version
  | help
  | misuse
deriving DecidableEq, Repr

/-- The names of the commands. -/
inductive CommandName where
  | check
  | run
  | parse
  | tokens
  | repl
deriving DecidableEq, Repr

namespace CommandName

/-- The command with a given name. -/
def ofText? : String → Option CommandName
  | "check" => some .check
  | "run" => some .run
  | "parse" => some .parse
  | "tokens" => some .tokens
  | "repl" => some .repl
  | _ => none

end CommandName

/-- The arguments of a command taken so far; each may be given once. -/
structure Options where
  verbose : Bool
  unchecked : Bool
  file : Option String
deriving DecidableEq, Repr

namespace Options

/-- No arguments yet. -/
def initial : Options := ⟨false, false, none⟩

/-- The command that the arguments make. -/
def command? (options : Options) (name : CommandName) : Option Command :=
  match name, options.file with
  | .repl, none => some .repl
  | .check, some file => some (.check file)
  | .run, some file => some (.run file !options.unchecked)
  | .parse, some file => some (.parse file)
  | .tokens, some file => some (.tokens file)
  | _, _ => none

/-- Take the name of a file. -/
def takeFile? (options : Options) (name : CommandName) (argument : String) : Option Options :=
  if name = .repl || options.file.isSome || argument.isEmpty then none
  else some { options with file := argument }

/-- Take the verbose flag. -/
def takeVerbose? (options : Options) : Option Options :=
  if options.verbose then none else some { options with verbose := true }

/-- Take the flag that leaves out the check. -/
def takeUnchecked? (options : Options) (name : CommandName) : Option Options :=
  if name ≠ .run || options.unchecked then none else some { options with unchecked := true }

end Options

namespace Invocation

/-- The meaning of short flags that are written together. -/
inductive Flags where
  | set (options : Options)
  | help
  | version
  | unknown
deriving DecidableEq, Repr

/-- Take short flags in order; the version is asked for only before the command. -/
def shortFlags (beforeCommand : Bool) (options : Options) : List Char → Flags
  | [] => .set options
  | 'v' :: rest =>
      match options.takeVerbose? with
      | some next => shortFlags beforeCommand next rest
      | none => .unknown
  | 'h' :: _ => .help
  | 'V' :: _ => if beforeCommand then .version else .unknown
  | _ => .unknown

/-- The arguments behind a double hyphen are files. -/
def files (name : CommandName) (options : Options) : List String → Invocation
  | [] => ((options.command? name).map .command).getD .misuse
  | argument :: rest =>
      match options.takeFile? name argument with
      | some next => files name next rest
      | none => .misuse

/-- The arguments behind the name of a command. -/
def ofCommand (name : CommandName) (options : Options) : List String → Invocation
  | [] => ((options.command? name).map .command).getD .misuse
  | argument :: rest =>
      match argument.toList with
      | ['-', '-'] => files name options rest
      | '-' :: '-' :: _ =>
          if argument = "--help" then .help
          else if argument = "--verbose" then
            match options.takeVerbose? with
            | some next => ofCommand name next rest
            | none => .misuse
          else if argument = "--no-check" then
            match options.takeUnchecked? name with
            | some next => ofCommand name next rest
            | none => .misuse
          else .misuse
      | '-' :: first :: flags =>
          match shortFlags false options (first :: flags) with
          | .set next => ofCommand name next rest
          | .help => .help
          | .version => .version
          | .unknown => .misuse
      | _ =>
          match options.takeFile? name argument with
          | some next => ofCommand name next rest
          | none => .misuse

/-- The arguments up to the name of a command. -/
def ofArgumentsFrom (options : Options) : List String → Invocation
  | [] => .misuse
  | argument :: rest =>
      match argument.toList with
      | '-' :: '-' :: _ =>
          if argument = "--help" then .help
          else if argument = "--version" then .version
          else if argument = "--verbose" then
            match options.takeVerbose? with
            | some next => ofArgumentsFrom next rest
            | none => .misuse
          else .misuse
      | '-' :: first :: flags =>
          match shortFlags true options (first :: flags) with
          | .set next => ofArgumentsFrom next rest
          | .help => .help
          | .version => .version
          | .unknown => .misuse
      | _ =>
          if argument = "help" then .help
          else
            match CommandName.ofText? argument with
            | some name => ofCommand name .initial rest
            | none => .misuse

/-- What a list of arguments asks for. -/
def ofArguments (arguments : List String) : Invocation :=
  ofArgumentsFrom .initial arguments

end Invocation

/--
The result of a command: its exit status, its output and its error output, and notes on
what is wrong with the source text.
-/
structure Report where
  status : Nat
  out : String
  err : String
  notes : List String
deriving DecidableEq, Repr

namespace Report

/-- A success with some output. -/
def success (out : String) : Report := ⟨0, out, "", []⟩

/-- A source text that cannot be read. -/
def unreadable (error : SourceError) : Report := ⟨1, "", "", [error.text]⟩

/-- The answer to a request for the version. -/
def version : Report := success "mtx 0.1.0\n"

/-- How to use the command. -/
def usage : String :=
  "Usage: mtx [-v] check <FILE> | run [--no-check] <FILE> | parse <FILE> | tokens <FILE> | repl"

/-- The answer to a request for help. -/
def help : Report := success (usage ++ "\n")

/-- The answer to arguments that make no sense. -/
def misuse : Report := ⟨2, "", "", [usage]⟩

end Report

namespace Command

/-- The file that a command works on. -/
def file? : Command → Option String
  | .check file | .run file _ | .parse file | .tokens file => some file
  | .repl => none

/-- A number at the right end of a field of four columns. -/
def alignRight (number : Nat) : String :=
  let digits := toString number
  String.ofList (List.replicate (4 - digits.length) ' ') ++ digits

/-- A number at the left end of a field of four columns. -/
def alignLeft (number : Nat) : String :=
  let digits := toString number
  digits ++ String.ofList (List.replicate (4 - digits.length) ' ')

/-- A token in the listing of a source text. -/
def tokenLine (token : Located Token) : String :=
  alignRight token.span.line ++ ":" ++ alignLeft token.span.start ++ " " ++
    token.item.listing ++ "\n"

/-- The listing of the tokens of a source text. -/
def listTokens (source : String) : Report :=
  match Token.scan source with
  | .error error => .unreadable error
  | .ok found => .success (String.join (found.map tokenLine))

/-- The tree of a source text. -/
def showTree (source : String) : Report :=
  match Program.parse source with
  | .error error => .unreadable error
  | .ok program => .success (program.outline.render ++ "\n")

/-- The refusal of a program with static errors. -/
def refuse (diagnostics : List Diagnostic) : Report :=
  ⟨1, "", s!"{diagnostics.length} error(s) found\n", diagnostics.map Diagnostic.textWithHint⟩

/-- The check of a source text. -/
def checkSource (file source : String) : Report :=
  match Program.parse source with
  | .error error => .unreadable error
  | .ok program =>
      match program.check with
      | [] => .success ("✓ " ++ file ++ " type checks successfully\n")
      | diagnostics => refuse diagnostics

/-- The report on a program that has been run. -/
def runReport (run : Run) : Report :=
  let out := run.machine.transcript.text
  match run.result with
  | .ok _ => .success out
  | .error error => ⟨1, out, error.text ++ "\n", []⟩

/-- The run of a source text, after a check unless that is left out. -/
def runSource (allowance : Nat) (source : String) (checked : Bool) : Option Report :=
  match Program.parse source with
  | .error error => some (.unreadable error)
  | .ok program =>
      match if checked then program.check else [] with
      | [] => (program.run allowance (.start .empty)).map runReport
      | diagnostics => some (refuse diagnostics)

/-- A whole conversation with the prompt. -/
def converse (allowance : Nat) (input : ByteArray) : Option Report :=
  (Prompt.start.takeAll allowance (InputLine.split [] input.toList)).map fun prompt =>
    ⟨0, prompt.console.out, prompt.console.err, []⟩

/-- Carry out a command on a source text. -/
def reportOn (allowance : Nat) (source : String) : Command → Option Report
  | .check file => some (checkSource file source)
  | .run _ checked => runSource allowance source checked
  | .parse _ => some (showTree source)
  | .tokens _ => some (listTokens source)
  | .repl => none

/--
Carry out a command.  `content` is what its file holds, if there is such a file, and
`input` the standard input.
-/
def report (allowance : Nat) (content : Option ByteArray) (input : ByteArray)
    (command : Command) : Option Report :=
  match command.file? with
  | none => converse allowance input
  | some file =>
      match content with
      | none => some (.unreadable (.unreadable ("cannot read " ++ file)))
      | some bytes =>
          match String.fromUTF8? bytes with
          | none => some (.unreadable (.unreadable (file ++ " is not valid UTF-8")))
          | some source => command.reportOn allowance source

end Command

end MatrixScript
