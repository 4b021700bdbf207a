import ReviewContext.Text.Basic

/-! # Paths

A path is a text of components between slashes. Empty components and `.` name nothing, `..` has no
name of its own, and a dot at the start of a name starts no extension. A path without a last
component counts as its own name, so that every path has one.
-/

namespace ReviewContext.Path

/-- The components that name something. -/
def components (path : List Char) : List (List Char) :=
  (Text.splitOn '/' path).filter fun part => !part.isEmpty && part != ['.']

/-- The last component; the root and a path that ends in `..` have none. -/
def lastComponent? (path : List Char) : Option (List Char) :=
  (components path).getLast?.filter (· != ['.', '.'])

/-- A name cut at its last dot, unless that dot is its first character. -/
def splitExtension (name : List Char) : List Char × Option (List Char) :=
  let fromEnd := name.reverse
  match fromEnd.dropWhile (· != '.') with
  | _ :: stem@(_ :: _) => (stem.reverse, some (fromEnd.takeWhile (· != '.')).reverse)
  | _ => (name, none)

/-- The last component (`src/Profile.ts` gives `Profile.ts`). -/
def fileName (path : String) : String :=
  ((lastComponent? path.toList).map String.ofList).getD path

/-- The last component without its extension (`src/Profile.ts` gives `Profile`). -/
def baseName (path : String) : String :=
  match lastComponent? path.toList with
  | some name => String.ofList (splitExtension name).1
  | none => path

/-- The extension with its dot (`src/Profile.ts` gives `.ts`), or nothing. -/
def extension (path : String) : String :=
  match (lastComponent? path.toList).map splitExtension with
  | some (_, some ext) => String.ofList ('.' :: ext)
  | _ => ""

/-- Directories that hold vendored or generated files. -/
def vendoredDirectories : List String :=
  ["node_modules", "dist", "build", "vendor", ".git", "target", "__pycache__", "venv", "coverage",
    ".next", ".cache"]

/-- Whether a path lies in a vendored or generated tree, or is minified. -/
def isVendored (path : String) : Bool :=
  Text.endsIn ".min.js".toList path.toList ||
    (Text.splitOn '/' path.toList).any fun part => vendoredDirectories.contains (String.ofList part)

end ReviewContext.Path
