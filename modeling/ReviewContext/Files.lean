import ReviewContext.Text.Utf8
import ReviewContext.Text.Basic

/-! # Files

What lies on a machine, by place: a place is the row of names that leads to it from the root. A path is
walked name by name, and every place on the way has to be a directory. There are no links, so walking
back from a directory leads to the one it was entered from.
-/

namespace ReviewContext

/-- Why the system could not do what it was asked for. -/
inductive SystemError where
  | notFound
  | notDirectory
  | isDirectory
  /-- The bytes of a file are no text. -/
  | notText
  /-- The bytes of the input are no text, from a known place on. -/
  | brokenText (fault : Utf8.Fault)
  /-- An argument of a command holds the character that ends it. -/
  | nulInArgument
  deriving DecidableEq

def SystemError.message : SystemError → String
  | notFound => "No such file or directory (os error 2)"
  | notDirectory => "Not a directory (os error 20)"
  | isDirectory => "Is a directory (os error 21)"
  | notText => "stream did not contain valid UTF-8"
  | brokenText fault => fault.message
  | nulInArgument => "nul byte found in provided data"

inductive Entry where
  | file (content : List UInt8)
  | directory

/-- The names on the way from the root. -/
abbrev Place := List String

abbrev Files := List (Place × Entry)

namespace Files

/-- What lies at a place. A directory is there if anything lies in it, and the root always is. -/
def entry? (files : Files) (place : Place) : Option Entry :=
  match files.find? (·.1 == place) with
  | some (_, entry) => some entry
  | none =>
    if place.isEmpty || files.any (fun (other, _) => place.isPrefixOf other) then some .directory
    else none

/-- Where a name leads from a directory. -/
def step (place : Place) (name : String) : Place :=
  if name == "" || name == "." then place
  else if name == ".." then place.dropLast
  else place ++ [name]

def walk (files : Files) (place : Place) : List String → Except SystemError (Place × Entry)
  | [] =>
    match files.entry? place with
    | some entry => .ok (place, entry)
    | none => .error .notFound
  | name :: rest =>
    match files.entry? place with
    | some .directory => walk files (step place name) rest
    | some (.file _) => .error .notDirectory
    | none => .error .notFound

/-- The names of a path, in order. -/
def names (path : String) : List String :=
  (Text.splitOn '/' path.toList).map String.ofList

def isAbsolute (path : String) : Bool :=
  path.toList.head? = some '/'

/-- What a path names, seen from the directory `here`. -/
def locate (files : Files) (here : Place) (path : String) : Except SystemError (Place × Entry) :=
  if path.isEmpty then .error .notFound
  else files.walk (if isAbsolute path then [] else here) (names path)

def isThere (files : Files) (here : Place) (path : String) : Bool :=
  (files.locate here path).toBool

/-- The text of a file. -/
def readText (files : Files) (here : Place) (path : String) : Except SystemError String :=
  match files.locate here path with
  | .error e => .error e
  | .ok (_, .directory) => .error .isDirectory
  | .ok (_, .file content) =>
    match Utf8.decode content with
    | .ok text => .ok (String.ofList text)
    | .error _ => .error .notText

/-- The path of something in a directory. -/
def joinPath (directory name : String) : String :=
  if directory.isEmpty || directory.toList.getLast? = some '/' then directory ++ name
  else directory ++ "/" ++ name

end Files

end ReviewContext
