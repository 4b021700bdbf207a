import ReviewContext.Path
import ReviewContext.Text.Lowercase

/-! # Languages

The languages whose imports and exports are read, which file extensions they use, and which of their
imports stay inside the repository.
-/

namespace ReviewContext

inductive Language where
  | javascript
  | typescript
  | rust
  | go
  | swift
  | kotlin
  | java
  | python
  | unknown
  deriving DecidableEq

namespace Language

def all : List Language :=
  [javascript, typescript, rust, go, swift, kotlin, java, python, unknown]

def name : Language → String
  | javascript => "javascript"
  | typescript => "typescript"
  | rust => "rust"
  | go => "go"
  | swift => "swift"
  | kotlin => "kotlin"
  | java => "java"
  | python => "python"
  | unknown => "unknown"

def ofName? (s : String) : Option Language :=
  all.find? (·.name == s)

/-- The language a lower-case extension stands for. -/
def ofExtension (ext : String) : Language :=
  if [".js", ".jsx", ".mjs", ".cjs"].contains ext then javascript
  else if [".ts", ".tsx", ".mts", ".cts"].contains ext then typescript
  else if ext == ".rs" then rust
  else if ext == ".go" then go
  else if ext == ".swift" then swift
  else if [".kt", ".kts"].contains ext then kotlin
  else if ext == ".java" then java
  else if [".py", ".pyi"].contains ext then python
  else unknown

/-- Extensions count in either case. -/
def ofPath (path : String) : Language :=
  ofExtension (String.ofList (Text.lower (Path.extension path).toList))

/-- The keyword that an importing file must hold. -/
def importKeyword? : Language → Option String
  | rust => some "use"
  | unknown => none
  | _ => some "import"

/-- Whether the language can name a module by its place in the repository. -/
def hasRelativeImports : Language → Bool
  | javascript | typescript | rust | go | python => true
  | swift | kotlin | java | unknown => false

/-- Whether an import names a module by its place in the repository. -/
def isRelative (language : Language) (path : List Char) : Bool :=
  match language with
  | javascript | typescript | go =>
    path == ['.'] || path == ['.', '.'] || ['.', '/'].isPrefixOf path ||
      ['.', '.', '/'].isPrefixOf path
  | rust =>
    "self::".toList.isPrefixOf path || "super::".toList.isPrefixOf path ||
      "crate::".toList.isPrefixOf path
  | python => ['.'].isPrefixOf path
  | swift | kotlin | java | unknown => false

end Language

end ReviewContext
