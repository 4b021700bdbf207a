import ReviewContext.Source.Statement

/-! # Imports

The forms of import of each language, one reader a form. A reader gives the module as it is written;
whether that is a place in the repository is for `Language.isRelative` to tell. Swift, Kotlin and Java
name modules by their place in a package only, so they have no reader.
-/

namespace ReviewContext.Source.Imports

/-- Characters that may stand between `import` and the module: names, braces, commas, stars. -/
def inClause (c : Char) : Bool :=
  Text.isWord c || Text.isBlank c || ['*', '{', '}', ',', '$'].contains c

/-- Whether a clause is a gap, something imported, another gap, `from` and a last gap. -/
def endsInFrom (clause : List Char) : Bool :=
  let fromEnd := clause.reverse
  match fromEnd.dropWhile Text.isBlank with
  | 'm' :: 'o' :: 'r' :: 'f' :: c :: earlier =>
    (fromEnd.headD 'm' |> Text.isBlank) && Text.isBlank c && 2 ≤ earlier.length &&
      (clause.headD 'm' |> Text.isBlank)
  | _ => false

/-- `import {A} from "m"` and, with the other keyword, `export {A} from "m"`. -/
def namesFrom? (word : String) : Reader (List Char) := fun cs => do
  let rest ← keyword? word cs
  if endsInFrom (rest.takeWhile inClause) then quotedText? (rest.dropWhile inClause) else none

/-- `import "m"`. -/
def bare? : Reader (List Char) := fun cs => do
  quotedText? (← keyword? "import" cs >>= gap?)

/-- `require("m")` and, with the other keyword, `import("m")`. -/
def call? (word : String) : Reader (List Char) := fun cs => do
  let rest ← keyword? word cs
  let rest ← keyword? "(" (Text.trimStart rest)
  let (path, rest) ← quotedText? (Text.trimStart rest)
  let rest ← keyword? ")" (Text.trimStart rest)
  return (path, rest)

/-- `pub` and perhaps where it holds, in parentheses. -/
def visibility? (cs : List Char) : Option (List Char) := do
  let rest ← keyword? "pub" cs
  match rest with
  | '(' :: more => keyword? ")" (more.dropWhile (· != ')')) >>= gap?
  | _ => gap? rest

/-- `use crate::a::b;`, without the blanks in it. -/
def use? : Reader (List Char) := fun cs => do
  let rest ← keyword? "use" (optional visibility? cs) >>= gap?
  let path := rest.takeWhile (· != ';')
  let after ← keyword? ";" (rest.dropWhile (· != ';'))
  if ["self::", "super::", "crate::"].any fun root =>
      root.toList.isPrefixOf path && root.length < path.length
  then return (path.filter (!Text.isBlank ·), after)
  else none

/-- `mod a;`, a module beside this one. -/
def mod? : Reader (List Char) := fun cs => do
  let rest ← keyword? "mod" (optional visibility? cs) >>= gap?
  let (name, rest) ← run? Text.isWord rest
  let after ← keyword? ";" (Text.trimStart rest)
  return ("self::".toList ++ name, after)

def inDottedName (c : Char) : Bool :=
  Text.isWord c || c == '.'

/-- A text between double quotes, on one line and not empty. -/
def doubleQuoted? : Reader (List Char) := fun cs => do
  let rest ← keyword? "\"" cs
  let (text, rest) ← run? (fun c => c != '"' && c != '\n') rest
  let after ← keyword? "\"" rest
  return (text, after)

/-- `import "m"`, perhaps with a local name before the module. -/
def single? : Reader (List Char) := fun cs => do
  let rest ← keyword? "import" cs >>= gap?
  let localName (cs : List Char) : Option (List Char) := do gap? (← run? inDottedName cs).2
  doubleQuoted? (optional localName rest)

/-- `import ( … )`; names what stands in the parentheses. -/
def group? : Reader (List Char) := fun cs => do
  let rest ← keyword? "import" cs
  let rest ← keyword? "(" (Text.trimStart rest)
  let after ← keyword? ")" (rest.dropWhile (· != ')'))
  return (rest.takeWhile (· != ')'), after)

/-- `from m import`. -/
def fromModule? : Reader (List Char) := fun cs => do
  let rest ← keyword? "from" cs >>= gap?
  let (path, rest) ← run? inDottedName rest
  let after ← gap? rest >>= keyword? "import"
  if (after.head?.map Text.isWord).getD false then none else return (path, after)

/-- `import m`. -/
def plain? : Reader (List Char) := fun cs => do
  run? inDottedName (← keyword? "import" cs >>= gap?)

def isSpaceOrTab (c : Char) : Bool :=
  c == ' ' || c == '\t'

/-- What is left after one space or tab or more. -/
def inlineGap? (cs : List Char) : Option (List Char) :=
  (run? isSpaceOrTab cs).map (·.2)

/-- `from . import a, b as c` on a line of its own; names the dots and the list behind `import`. -/
def fromPackage? : Reader (List Char × List Char) := fun cs => do
  let (dots, rest) ← keyword? "from" cs >>= inlineGap? >>= run? (· == '.')
  let rest ← inlineGap? rest >>= keyword? "import" >>= inlineGap?
  let (names, after) ← run? (fun c => Text.isWord c || isSpaceOrTab c || c == ',') rest
  if after.isEmpty || after.head? = some '\n' then return ((dots, names), after) else none

/-- The modules that `from . import a, b as c` names: each first word of the list, after the dots. -/
def siblings (dots names : List Char) : List (List Char) :=
  (Text.splitOn ',' names).filterMap fun item => (Text.words item).head?.map (dots ++ ·)

/-- A statement may stand anywhere in the white space at the start of a line. -/
def indented : Anchor :=
  .line Text.isBlank

/-- The modules a text names, form by form. -/
def written (language : Language) (text : List Char) (quoted : List Bool) : List (List Char) :=
  let find {α : Type} (anchor : Anchor) (read : Reader α) := statements anchor read text quoted
  match language with
  | .javascript | .typescript =>
    find indented (namesFrom? "import") ++ find indented bare? ++
      find indented (namesFrom? "export") ++ find .word (call? "require") ++
      find .word (call? "import")
  | .rust => find indented use? ++ find indented mod?
  | .go =>
    find indented single? ++
      (find indented group?).flatMap fun group => statements .anywhere doubleQuoted? group []
  | .python =>
    find indented fromModule? ++ find indented plain? ++
      (find (.line isSpaceOrTab) fromPackage?).flatMap fun (dots, names) => siblings dots names
  | .swift | .kotlin | .java | .unknown => []

end ReviewContext.Source.Imports
