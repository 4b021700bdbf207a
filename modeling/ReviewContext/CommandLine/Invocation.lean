import ReviewContext.CommandLine.Assemble

/-! # Invocations

A command line names one command. Before the command only help, the version and `-v` may be asked for;
`-v` counts in front of the command only if it is not given behind it.
-/

namespace ReviewContext.CommandLine

inductive Command where
  | assemble (given : AssembleArguments)
  | parse (file : String)
  | version

structure Invocation where
  command : Command
  verbose : Nat

namespace Invocation

def commandNames : List String :=
  ["assemble", "parse", "version", "help"]

/-- The one operand is the file. -/
def parseGrammar : Grammar (Option String) where
  options := []
  switches := []
  operand? := some (filling "file" readPath id fun _ file => file)

def versionGrammar : Grammar Unit where
  options := []
  switches := []
  operand? := none

/-- The invocation of a command behind `outer` times `-v`. -/
def withCommand (outer inner : Nat) (command : Command) : Invocation :=
  ⟨command, if inner = 0 then outer else inner⟩

/-- Help can be asked for as a command, on its own or for one command. -/
def helpFor : List String → UsageError
  | [] | ["assemble"] | ["parse"] | ["version"] | ["help"] => .help
  | _ => .unknownCommand

/-- Reads the arguments of a command. -/
def ofCommand (outer : Nat) (name : String) (words : List String) :
    Except UsageError Invocation :=
  match name with
  | "assemble" => do
    let scan ← AssembleArguments.grammar.read {} words
    if scan.given.isComplete then return withCommand outer scan.verbose (.assemble scan.given)
    else .error .missingArgument
  | "parse" => do
    let scan ← parseGrammar.read none words
    match scan.given with
    | some file => return withCommand outer scan.verbose (.parse file)
    | none => .error .missingArgument
  | "version" => do
    let scan ← versionGrammar.read () words
    return withCommand outer scan.verbose .version
  | _ => .error (helpFor words)

/-- What the letters of short options before the command come to. -/
def shortOptions (verbose : Nat) : List Char → Except UsageError Nat
  | [] => .ok verbose
  | 'v' :: letters => shortOptions (min 255 (verbose + 1)) letters
  | 'h' :: _ => .error .help
  | 'V' :: _ => .error .version
  | _ => .error .unknownArgument

def longOption (verbose : Nat) (name : String) (value? : Option String) : Except UsageError Nat :=
  let known (answer : Except UsageError Nat) : Except UsageError Nat :=
    if value?.isSome then .error .tooManyValues else answer
  match name with
  | "verbose" => known (.ok (min 255 (verbose + 1)))
  | "help" => known (.error .help)
  | "version" => known (.error .version)
  | _ => .error .unknownArgument

/-- A line that ends without a command. -/
def withoutCommand (verbose : Nat) : UsageError :=
  if verbose = 0 then .helpForNothing else .missingCommand

/-- The mistake of words that can only be operands where there are none. -/
def endOfOptions (verbose : Nat) : List String → UsageError
  | [] => withoutCommand verbose
  | word :: _ => if commandNames.contains word then .unknownArgument else .unknownCommand

/-- Reads the words of a command line after the name of the program. -/
def read (verbose : Nat) : List String → Except UsageError Invocation
  | [] => .error (withoutCommand verbose)
  | word :: rest =>
    if commandNames.contains word then ofCommand verbose word rest
    else
      match Word.ofString word with
      | .endOfOptions => .error (endOfOptions verbose rest)
      | .long name value? => do read (← longOption verbose name value?) rest
      | .short letters => do read (← shortOptions verbose letters) rest
      | .plain => .error .unknownCommand

def ofWords (words : List String) : Except UsageError Invocation :=
  read 0 words

end Invocation

end ReviewContext.CommandLine
