import ReviewContext.Change.RelatedFile
import ReviewContext.Strategy

/-! # Changed files

A file touched by the change under review. A diff gives its name, its status and its patch; only the
assembly of context fills in the rest.
-/

namespace ReviewContext

inductive FileStatus where
  | added
  | modified
  | removed
  | renamed
  deriving DecidableEq

namespace FileStatus

def name : FileStatus → String
  | added => "added"
  | modified => "modified"
  | removed => "removed"
  | renamed => "renamed"

def ofName? (s : String) : Option FileStatus :=
  [added, modified, removed, renamed].find? (·.name == s)

def normalise (s : String) : String :=
  String.ofList (Text.lower s.toList)

/-- Reads the status of a file in a pull request; the rarer ones fold onto the four. -/
def read? (s : String) : Option FileStatus :=
  let s := normalise s
  if s == "copied" then some added
  else if s == "changed" || s == "unchanged" then some modified
  else if s == "deleted" then some removed
  else ofName? s

def unknown (s : String) : String :=
  "unknown file status: '" ++ normalise s ++ "'"

def toJson (status : FileStatus) : Json :=
  .string status.name

def ofJson? (value : Json) : Option FileStatus :=
  value.caseName? >>= ofName?

end FileStatus

structure ChangedFile where
  filename : String
  status : FileStatus
  /-- The hunks of the diff; a binary file has none. -/
  patch : Option String := none
  /-- The whole file after the change, or the head of it. -/
  fullContent : Option String := none
  /-- The strategy that made this record; nothing if none succeeded. -/
  strategy : Option Strategy := none
  dependencies : Option Bundle := none
  /-- Why there is less context than asked for. -/
  degradation : Option String := none
  deriving DecidableEq

namespace ChangedFile

def isRemoved (file : ChangedFile) : Bool :=
  file.status = .removed

/-- A member that is left out if it is missing. -/
def member {α : Type} (name : String) (toJson : α → Json) : Option α → List (String × Json)
  | some value => [(name, toJson value)]
  | none => []

def toJson (file : ChangedFile) : Json :=
  .object (member "context_strategy" Strategy.toJson file.strategy ++
    member "degradation" Json.string file.degradation ++
    member "dependencies" Bundle.toJson file.dependencies ++
    [("filename", .string file.filename)] ++
    member "full_content" Json.string file.fullContent ++
    member "patch" Json.string file.patch ++ [("status", file.status.toJson)])

def ofJson? (value : Json) : Option ChangedFile := do
  match ← value.fields? ["filename", "status", "patch", "full_content", "context_strategy",
    "dependencies", "degradation"] with
  | [filename, status, patch, fullContent, strategy, dependencies, degradation] =>
    return {
      filename := ← Field.required? Json.string? filename
      status := ← Field.required? FileStatus.ofJson? status
      patch := ← Json.optional? Json.string? patch
      fullContent := ← Json.optional? Json.string? fullContent
      strategy := ← Json.optional? Strategy.ofJson? strategy
      dependencies := ← Json.optional? Bundle.ofJson? dependencies
      degradation := ← Json.optional? Json.string? degradation }
  | _ => none

end ChangedFile

end ReviewContext
