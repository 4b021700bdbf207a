import ReviewContext.Text.Basic

/-! # Options on a command line

A command takes options with a value, switches, and perhaps one operand; how many times `-v` is given is
counted. An option is settled, which is when its value is looked at, only when something other than its
value comes: so of two mistakes, an argument that is not known goes before a bad value in front of it.
-/

namespace ReviewContext.CommandLine

inductive UsageError where
  | missingArgument
  | unknownArgument
  /-- A value is missing, or none of those that are possible. -/
  | invalidValue
  /-- A value cannot be read as what the option takes. -/
  | unreadableValue
  /-- An argument is given twice. -/
  | conflict
  | tooManyValues
  | unknownCommand
  | missingCommand
  | help
  | version
  /-- Nothing is given at all. -/
  | helpForNothing
  deriving DecidableEq

/-! ## Words -/

/-- What a word is, before any `--`. -/
inductive Word where
  /-- The mark after which every word is an operand. -/
  | endOfOptions
  | long (name : String) (value? : Option String)
  | short (letters : List Char)
  | plain
  deriving DecidableEq

namespace Word

/-- A name, and the value behind an equals sign if there is one. -/
def ofLong (cs : List Char) : Word :=
  let name := String.ofList (cs.takeWhile (· != '='))
  match cs.dropWhile (· != '=') with
  | [] => long name none
  | _ :: value => long name (some (String.ofList value))

def ofString (s : String) : Word :=
  match s.toList with
  | ['-', '-'] => endOfOptions
  | '-' :: '-' :: rest => ofLong rest
  | ['-'] => plain
  | '-' :: letters => short letters
  | _ => plain

end Word

/-! ## Grammars -/

/-- An option with a value, or an operand, of a command whose arguments are collected in `α`. -/
structure Argument (α : Type) where
  name : String
  isGiven : α → Bool
  give : String → α → Except UsageError α

structure Switch (α : Type) where
  name : String
  isGiven : α → Bool
  give : α → α

structure Grammar (α : Type) where
  options : List (Argument α)
  switches : List (Switch α)
  operand? : Option (Argument α)

/-- What was read of the arguments of a command. -/
structure Scan (α : Type) where
  given : α
  verbose : Nat
  /-- The argument that is not settled yet, with its value if that was there. -/
  pending? : Option (Argument α × Option String)
  /-- Whether the operand was there. -/
  hasOperand : Bool

namespace Scan

variable {α : Type}

/-- Takes the value of an argument that is given for the first time. -/
def take (scan : Scan α) (argument : Argument α) (value : String) : Except UsageError (Scan α) :=
  if argument.isGiven scan.given then .error .conflict
  else
    match argument.give value scan.given with
    | .ok given => .ok { scan with given }
    | .error e => .error e

/-- Settles the argument that is not settled yet. -/
def settle (scan : Scan α) : Except UsageError (Scan α) :=
  match scan.pending? with
  | none => .ok scan
  | some (_, none) => .error .invalidValue
  | some (argument, some value) => { scan with pending? := none }.take argument value

/-- One more `-v`; the count stops where it no longer fits a byte. -/
def louder (scan : Scan α) : Except UsageError (Scan α) := do
  let scan ← scan.settle
  return { scan with verbose := min 255 (scan.verbose + 1) }

/-- Help ends the reading, unless what comes before it is wrong. -/
def askHelp (scan : Scan α) : Except UsageError (Scan α) := do
  let _ ← scan.settle
  .error .help

def turn (scan : Scan α) (switch : Switch α) : Except UsageError (Scan α) := do
  let scan ← scan.settle
  if switch.isGiven scan.given then .error .conflict
  else return { scan with given := switch.give scan.given }

def long (grammar : Grammar α) (scan : Scan α) (name : String) (value? : Option String) :
    Except UsageError (Scan α) :=
  match grammar.options.find? (·.name == name) with
  | some option => do
    let scan ← scan.settle
    match value? with
    | some value => scan.take option value
    | none => return { scan with pending? := some (option, none) }
  | none =>
    let switch? := grammar.switches.find? (·.name == name)
    if !(switch?.isSome || name == "verbose" || name == "help") then .error .unknownArgument
    else if value?.isSome then .error .tooManyValues
    else
      match switch? with
      | some switch => scan.turn switch
      | none => if name == "verbose" then scan.louder else scan.askHelp

def short (scan : Scan α) : List Char → Except UsageError (Scan α)
  | [] => .ok scan
  | 'v' :: letters => do short (← scan.louder) letters
  | 'h' :: _ => scan.askHelp
  | _ => .error .unknownArgument

def operand (grammar : Grammar α) (scan : Scan α) (value : String) : Except UsageError (Scan α) :=
  match grammar.operand? with
  | some argument =>
    if scan.hasOperand then .error .unknownArgument
    else do
      let scan ← scan.settle
      return { scan with pending? := some (argument, some value), hasOperand := true }
  | none => .error .unknownArgument

/-- A word that is no option is the value of the option before it, if that has none yet. -/
def plain (grammar : Grammar α) (scan : Scan α) (value : String) : Except UsageError (Scan α) :=
  match scan.pending? with
  | some (option, none) => .ok { scan with pending? := some (option, some value) }
  | _ => scan.operand grammar value

/-- Reads the arguments of a command; `ended` tells that every word is an operand. -/
def words (grammar : Grammar α) (ended : Bool) (scan : Scan α) :
    List String → Except UsageError (Scan α)
  | [] => scan.settle
  | word :: rest =>
    if ended then do words grammar true (← scan.operand grammar word) rest
    else
      match Word.ofString word with
      | .endOfOptions => words grammar true scan rest
      | .long name value? => do words grammar false (← scan.long grammar name value?) rest
      | .short letters => do words grammar false (← scan.short letters) rest
      | .plain => do words grammar false (← scan.plain grammar word) rest

end Scan

/-- Reads all arguments of a command that has none so far. -/
def Grammar.read {α : Type} (grammar : Grammar α) (empty : α) (words : List String) :
    Except UsageError (Scan α) :=
  Scan.words grammar false ⟨empty, 0, none, false⟩ words

end ReviewContext.CommandLine
