import ReviewContext.Git.Commands
import ReviewContext.Host.Basic
import ReviewContext.Path

/-! # Repositories of git

A clone on the machine is a host: everything is read from its commits, never from its working tree, so
that what is fetched is what the revision under review holds.
-/

namespace ReviewContext.Git

/-- The directory of a clone. -/
structure Repository where
  /-- Its name; the root of the machine has none. -/
  name? : Option String
  /-- Why no command can be run in it, if none can. -/
  missing? : Option SystemError

/-- Asks git; an error ends it. -/
abbrev Asking := ExceptT AccessError (StateM Commands)

namespace Repository

/-- The clone at a path, seen from the directory `here`. -/
def ofPath (files : Files) (here : Place) (path : String) : Repository :=
  match files.locate here path with
  | .ok (place, .directory) => ⟨place.getLast?, none⟩
  | .ok (place, .file _) => ⟨place.getLast?, some .notDirectory⟩
  | .error e => ⟨none, some e⟩

def run (repository : Repository) (args : List String) : Asking Output :=
  fun commands =>
    match commands.run repository.missing? args with
    | (.ok output, commands) => (.ok output, commands)
    | (.error e, commands) => (.error (.git ("failed to run git: " ++ e.message)), commands)

/-- The error of a command that failed. -/
def failure (command : String) (output : Output) : AccessError :=
  .git ("git " ++ command ++ " failed (exit " ++ output.status ++ "): " ++
    String.ofList (Text.trim output.errorText))

/-- The commit that a revision names. -/
def resolve (repository : Repository) (revision : String) : Asking String := do
  let output ← repository.run ["rev-parse", "--verify", revision ++ "^\x7bcommit\x7d"]
  if output.succeeded then return output.trimmed
  else throw (.notFound ("revision " ++ revision))

/-- The clone at a revision. It belongs to no one, so its owner is called local. -/
def ref (repository : Repository) (revision : String) : Asking RepositoryRef := do
  return ⟨"local", repository.name?.getD "repository", ← repository.resolve revision⟩

/-- Whether git says that the revision has no such path. -/
def saysAbsent (message : List Char) : Bool :=
  Text.occursIn "does not exist".toList message || Text.occursIn "exists on disk".toList message

def content (repository : Repository) (ref : RepositoryRef) (path : String) : Asking String := do
  let output ← repository.run ["show", ref.headRevision ++ ":" ++ path]
  if !output.succeeded then
    if saysAbsent output.errorText then throw (.notFound path)
    else throw (failure "show" output)
  match Utf8.decode output.stdout with
  | .ok text => return String.ofList text
  | .error _ => throw (.api (path ++ " is not valid UTF-8"))

/-- A line of a text search without the revision in front of the path. -/
def withoutRevision (revision : String) (line : List Char) : List Char :=
  (List.isPrefixOf? (revision.toList ++ [':']) line).getD line

/-- The paths of the files that hold every term. Git says by a code of its own that there are none. -/
def filesWith (repository : Repository) (revision : String) (terms : List String) :
    Asking (List String) := do
  let output ← repository.run (["grep", "-l", "-I", "-F", "--all-match"] ++
    terms.flatMap (["-e", ·]) ++ [revision, "--"])
  if output.code = 1 then return []
  if !output.succeeded then throw (failure "grep" output)
  return (Text.lines output.text).map fun line => String.ofList (withoutRevision revision line)

/-- The paths of the files with a name. -/
def filesNamed (repository : Repository) (revision name : String) : Asking (List String) := do
  let output ← repository.run ["ls-tree", "-r", "--name-only", revision]
  if !output.succeeded then throw (failure "ls-tree" output)
  return ((Text.lines output.text).map String.ofList).filter (Path.fileName · == name)

def search (repository : Repository) (ref : RepositoryRef) (query : Query) (limit : Nat) :
    Asking (List String) := do
  let paths ← match query with
    | .text terms => repository.filesWith ref.headRevision terms
    | .filename name => repository.filesNamed ref.headRevision name
  return paths.take limit

/-- The changes between two revisions, as a unified diff. -/
def diff (repository : Repository) (base head : String) : Asking String := do
  let output ← repository.run ["diff", "--src-prefix=a/", "--dst-prefix=b/", base, head, "--"]
  if !output.succeeded then
    throw (.git ("git diff failed (exit " ++ output.status ++ "): " ++
      String.ofList output.errorText))
  match Utf8.decode output.stdout with
  | .ok text => return String.ofList text
  | .error fault => throw (.git ("git output is not valid UTF-8: " ++ fault.message))

/-- The path of the top directory of the clone that this directory lies in. -/
def topLevel (repository : Repository) : Asking String := do
  let output ← repository.run ["rev-parse", "--show-toplevel"]
  if output.succeeded then return output.trimmed
  else throw (.git ("not a git repository: " ++ String.ofList output.errorText))

/-- A reply comes after a moment for every command it took, so a run that waits no time gets none. -/
def reply {α : Type} (asking : Asking α) (commands : Commands) : Reply α × Commands :=
  let (result, after) := asking commands
  (⟨after.started.length - commands.started.length, result⟩, after)

def host (repository : Repository) : Host Commands where
  fetch ref path := reply (repository.content ref path)
  search ref query limit := reply (repository.search ref query limit)

end Repository

end ReviewContext.Git
