import ReviewContext.CommandLine.Grammar
import ReviewContext.Diff.Input

/-! # Arguments of an assembly

Where the change comes from, what goes before the configuration, and how the result is written. What no
argument says is left open here; only the path and the format have defaults of their own.
-/

namespace ReviewContext.CommandLine

inductive Format where
  | terminal
  | json
  deriving DecidableEq

def Format.ofName? : String → Option Format
  | "terminal" => some .terminal
  | "json" => some .json
  | _ => none

/-- Where a change comes from. -/
inductive Source where
  /-- A diff in a clone, and the revision that its contents are read at. -/
  | clone (diff : Diff.Input) (head : String)
  | pullRequest (owner repo : String) (number : Nat)
  deriving DecidableEq

structure AssembleArguments where
  path? : Option String := none
  base? : Option String := none
  head? : Option String := none
  diffFile? : Option String := none
  diffStdin : Bool := false
  gitHub? : Option String := none
  pullRequest? : Option Nat := none
  strategy? : Option Strategy := none
  fallback? : Option Strategy := none
  maxFileSize? : Option Nat := none
  maxCharsPerFile? : Option Nat := none
  maxDependents? : Option Nat := none
  maxTests? : Option Nat := none
  noRelationships : Bool := false
  timeout? : Option Nat := none
  format? : Option Format := none
  deriving DecidableEq

/-! ## Values -/

/-- A path is never empty. -/
def readPath (value : String) : Except UsageError String :=
  if value.isEmpty then .error .invalidValue else .ok value

def readCount (value : String) : Except UsageError Nat :=
  match Text.readNat? Text.maxWord value.toList with
  | some n => .ok n
  | none => .error .unreadableValue

def readStrategy (value : String) : Except UsageError Strategy :=
  match Strategy.read? value with
  | some strategy => .ok strategy
  | none => .error .unreadableValue

def readFormat (value : String) : Except UsageError Format :=
  match Format.ofName? value with
  | some format => .ok format
  | none => .error .invalidValue

/-- An argument that fills a field. -/
def filling {α β : Type} (name : String) (read : String → Except UsageError β)
    (field : α → Option β) (fill : α → Option β → α) : Argument α where
  name := name
  isGiven given := (field given).isSome
  give value given := do return fill given (some (← read value))

namespace AssembleArguments

def grammar : Grammar AssembleArguments where
  options := [
    filling "path" readPath path? ({ · with path? := · }),
    filling "base" .ok base? ({ · with base? := · }),
    filling "head" .ok head? ({ · with head? := · }),
    filling "diff-file" readPath diffFile? ({ · with diffFile? := · }),
    filling "github" .ok gitHub? ({ · with gitHub? := · }),
    filling "pr" readCount pullRequest? ({ · with pullRequest? := · }),
    filling "strategy" readStrategy strategy? ({ · with strategy? := · }),
    filling "fallback" readStrategy fallback? ({ · with fallback? := · }),
    filling "max-file-size" readCount maxFileSize? ({ · with maxFileSize? := · }),
    filling "max-chars-per-file" readCount maxCharsPerFile? ({ · with maxCharsPerFile? := · }),
    filling "max-dependents" readCount maxDependents? ({ · with maxDependents? := · }),
    filling "max-tests" readCount maxTests? ({ · with maxTests? := · }),
    filling "timeout" readCount timeout? ({ · with timeout? := · }),
    filling "format" readFormat format? ({ · with format? := · })]
  switches := [
    ⟨"diff-stdin", diffStdin, ({ · with diffStdin := true })⟩,
    ⟨"no-relationships", noRelationships, ({ · with noRelationships := true })⟩]
  operand? := none

/-- A repository of GitHub and a number of a pull request are given together or not at all. -/
def isComplete (given : AssembleArguments) : Bool :=
  given.gitHub?.isSome == given.pullRequest?.isSome

/-- The directory that the clone is looked for from. -/
def path (given : AssembleArguments) : String :=
  given.path?.getD "."

def format (given : AssembleArguments) : Format :=
  given.format?.getD .json

/-- How many places are named that a change may come from. -/
def sourceCount (given : AssembleArguments) : Nat :=
  [given.base?.isSome, given.diffFile?.isSome, given.diffStdin, given.gitHub?.isSome].count true

def sourceNames : String :=
  "--base, --diff-file, --diff-stdin, or --github"

/-- The owner and the name of a repository between which a slash stands. -/
def splitSlug? (slug : String) : Option (String × String) :=
  match Text.splitOn '/' slug.toList with
  | [owner, repo] =>
    if owner.isEmpty || repo.isEmpty then none else some (String.ofList owner, String.ofList repo)
  | _ => none

/-- The pull request in a repository of GitHub. -/
def pullRequest (given : AssembleArguments) (slug : String) : Except String Source :=
  if given.head?.isSome then .error "--head cannot be combined with --github"
  else
    match splitSlug? slug, given.pullRequest? with
    | none, _ => .error ("--github expects owner/repo, got '" ++ slug ++ "'")
    | some _, none => .error "--github requires --pr"
    | some (owner, repo), some number => .ok (.pullRequest owner repo number)

/-- The one place that the change comes from. -/
def source (given : AssembleArguments) : Except String Source :=
  if given.sourceCount = 0 then .error ("one input source is required: " ++ sourceNames)
  else if 1 < given.sourceCount then .error ("only one input source allowed: " ++ sourceNames)
  else
    let head := given.head?.getD "HEAD"
    match given.gitHub?, given.base?, given.diffFile? with
    | some slug, _, _ => given.pullRequest slug
    | none, some base, _ => .ok (.clone (.revisions base head) head)
    | none, none, some path => .ok (.clone (.file path) head)
    | none, none, none => .ok (.clone .standardInput head)

/-- The settings with those that arguments give. -/
def overlay (given : AssembleArguments) (base : Settings) : Settings :=
  { strategy := given.strategy?.getD base.strategy
    fallback := given.fallback?.getD base.fallback
    maxFileSize := given.maxFileSize?.getD base.maxFileSize
    maxCharsPerFile := given.maxCharsPerFile?.getD base.maxCharsPerFile
    maxDependents := given.maxDependents?.getD base.maxDependents
    maxTests := given.maxTests?.getD base.maxTests
    enableRelationships := base.enableRelationships && !given.noRelationships
    requestTimeoutSecs := given.timeout?.getD base.requestTimeoutSecs }

end AssembleArguments

end ReviewContext.CommandLine
