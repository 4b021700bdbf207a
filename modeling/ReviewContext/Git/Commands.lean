import ReviewContext.Files

/-! # Commands of git

Git answers a command by its exit code and two streams. Here it is a table of commands and answers that
notes every command that was started.
-/

namespace ReviewContext.Git

structure Output where
  code : Nat
  stdout : List UInt8
  stderr : List UInt8

namespace Output

def succeeded (output : Output) : Bool :=
  output.code = 0

def status (output : Output) : String :=
  "exit status: " ++ toString output.code

/-- The answer as text, whatever its bytes are. -/
def text (output : Output) : List Char :=
  Utf8.decodeLenient output.stdout

def errorText (output : Output) : List Char :=
  Utf8.decodeLenient output.stderr

/-- The answer without the blanks around it. -/
def trimmed (output : Output) : String :=
  String.ofList (Text.trim output.text)

end Output

structure Commands where
  answers : List (List String × Output)
  /-- What any other command comes to. -/
  otherwise : Except SystemError Output
  /-- The commands that were started, the last first. -/
  started : List (List String)

namespace Commands

def answer (commands : Commands) (args : List String) : Except SystemError Output :=
  match commands.answers.find? (·.1 == args) with
  | some (_, output) => .ok output
  | none => commands.otherwise

def hasNul (arg : String) : Bool :=
  arg.toList.contains (Char.ofNat 0)

/-- Runs a command in a directory; `missing?` tells why that cannot be done there. -/
def run (missing? : Option SystemError) (args : List String) (commands : Commands) :
    Except SystemError Output × Commands :=
  if args.any hasNul then (.error .nulInArgument, commands)
  else
    match missing? with
    | some e => (.error e, commands)
    | none => (commands.answer args, { commands with started := args :: commands.started })

end Commands

end ReviewContext.Git
