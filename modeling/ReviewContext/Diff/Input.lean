import ReviewContext.Diff
import ReviewContext.Git.Repository

/-! # Where a diff comes from

Git makes the diff between two revisions; a diff may also lie in a file or come in on the input.
-/

namespace ReviewContext.Diff

inductive Input where
  | revisions (base head : String)
  | file (path : String)
  | standardInput
  deriving DecidableEq

inductive ReadError where
  | access (error : AccessError)
  | unreadable (error : SystemError)
  | missing (path : String)
  deriving DecidableEq

namespace ReadError

def message : ReadError → String
  | access error => error.message
  | unreadable error => "failed to read diff: " ++ error.message
  | missing path => "path not found: " ++ path

/-- The message, and that of the error behind it. -/
def causes (error : ReadError) : List String :=
  error.message ::
    match error with
    | unreadable error => [error.message]
    | _ => []

end ReadError

namespace Input

/-- The text of a file of a diff. -/
def textOfFile (files : Files) (here : Place) (path : String) : Except ReadError String :=
  match files.readText here path with
  | .ok text => .ok text
  | .error .notFound => .error (.missing path)
  | .error e => .error (.unreadable e)

/-- The text of a diff that comes in as bytes. -/
def textOfBytes (bytes : List UInt8) : Except ReadError String :=
  match Utf8.decode bytes with
  | .ok text => .ok (String.ofList text)
  | .error fault => .error (.unreadable (.brokenText fault))

/-- The text of the diff. -/
def read (input : Input) (files : Files) (here : Place) (standardInput : List UInt8)
    (repository : Git.Repository) : ExceptT ReadError (StateM Git.Commands) String :=
  match input with
  | revisions base head => fun commands =>
    let (result, commands) := repository.diff base head commands
    (result.mapError .access, commands)
  | file path => fun commands => (textOfFile files here path, commands)
  | .standardInput => fun commands => (textOfBytes standardInput, commands)

end Input

end ReviewContext.Diff
