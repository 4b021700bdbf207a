import ReviewContext.CommandLine.Grammar

/-! # What is said about a command line

The overview of the commands, and a line for each mistake.
-/

namespace ReviewContext.CommandLine

def programName : String := "reviewctx"

def programVersion : String := "0.1.0"

def overview : String :=
  "Usage: " ++ programName ++ " [-v] <command>\n\n" ++
  "Commands:\n" ++
  "  assemble  put together the context of a change for its review\n" ++
  "  parse     print what a source file imports and exports\n" ++
  "  version   print the version\n" ++
  "  help      print this overview\n"

namespace UsageError

def message : UsageError → String
  | missingArgument => "a required argument is missing"
  | unknownArgument => "an argument is not known"
  | invalidValue => "an option has no value, or none that is possible"
  | unreadableValue => "the value of an option cannot be read"
  | conflict => "an argument is given twice"
  | tooManyValues => "a value is given where none is taken"
  | unknownCommand => "the command is not known"
  | missingCommand => "a command is missing"
  | help | version | helpForNothing => ""

/-- Whether the mistake is none, but was asked for. -/
def isAnswer : UsageError → Bool
  | help | version => true
  | _ => false

/-- What is printed in answer to a question. -/
def answer : UsageError → String
  | help => overview
  | version => programName ++ " " ++ programVersion ++ "\n"
  | _ => ""

/-- What is printed about a mistake. -/
def complaint : UsageError → String
  | help | version => ""
  | helpForNothing => overview
  | error => "error: " ++ error.message ++ "\n\n" ++ overview

end UsageError

end ReviewContext.CommandLine
