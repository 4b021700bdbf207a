import ReviewContext.Source.Statement

/-! # Exports

The declarations that other files may import: those whose name starts with an upper-case letter, in the
form each language has for them. Only JavaScript lets them be indented.
-/

namespace ReviewContext.Source.Exports

/-- Modifiers, then a kind of declaration, then its name. -/
def declaration? (modifiers kinds : List String) : Reader (List Char) := fun cs => do
  typeName? Text.isWord (← oneOf? kinds (many (oneOf? modifiers) cs))

def inScriptName (c : Char) : Bool :=
  Text.isWord c || c == '$'

/-- `export class A`, with `default`, `declare`, `abstract` and `async` in this order. -/
def script? : Reader (List Char) := fun cs => do
  let rest ← oneOf? ["export"] cs
  let rest := ["default", "declare", "abstract", "async"].foldl
    (fun rest modifier => optional (oneOf? [modifier]) rest) rest
  typeName? inScriptName (← oneOf? ["class", "interface", "function", "function*", "const", "let",
    "var", "type", "enum", "namespace"] rest)

def startsUpper (cs : List Char) : Bool :=
  (cs.head?.map Char.isUpper).getD false

/-- `pub struct A`. The word `const` is a kind of declaration in front of a name, and a modifier of a
function else. -/
def pub? : Reader (List Char) := fun cs => do
  let rest ← oneOf? ["pub"] cs
  let modifier (cs : List Char) : Option (List Char) :=
    (oneOf? ["async", "const", "unsafe"] cs).filter (!startsUpper ·)
  typeName? Text.isWord (← oneOf? ["struct", "enum", "trait", "fn", "const", "static", "type",
    "union"] (many modifier rest))

def capital? : Reader (List Char) :=
  declaration? [] ["func", "type", "const", "var"]

/-- `@name` and perhaps its arguments, on one line. -/
def attribute? (cs : List Char) : Option (List Char) := do
  let (_, rest) ← keyword? "@" cs >>= run? Text.isWord
  match rest with
  | '(' :: more => keyword? ")" (more.dropWhile fun c => c != ')' && c != '\n') >>= gap?
  | _ => gap? rest

/-- `public struct A`, perhaps with attributes. -/
def attributed? : Reader (List Char) := fun cs => do
  declaration? ["final", "static"] ["class", "struct", "enum", "protocol", "actor", "func",
    "typealias", "let", "var"] (← oneOf? ["public", "open"] (many attribute? cs))

/-- `data class A`; a declaration is public if nothing else is said. -/
def implicit? : Reader (List Char) := fun cs =>
  declaration? ["data", "sealed", "abstract", "open", "enum", "inner", "value", "annotation", "const"]
    ["class", "interface", "object", "fun", "val", "typealias"] (optional (oneOf? ["public"]) cs)

/-- `public class A`. -/
def explicit? : Reader (List Char) := fun cs => do
  declaration? ["abstract", "final", "sealed", "static", "strictfp"]
    ["class", "interface", "enum", "record", "@interface"] (← oneOf? ["public"] cs)

/-- `class A` or `def A`, perhaps with `async` before the latter. -/
def toplevel? : Reader (List Char) := fun cs => do
  let rest ← oneOf? ["class", "def"] cs <|> (oneOf? ["async"] cs >>= oneOf? ["def"])
  typeName? Text.isWord rest

/-- A declaration that must stand at the very start of a line. -/
def flush : Anchor :=
  .line fun _ => false

/-- The names a text declares for others. -/
def written (language : Language) (text : List Char) (quoted : List Bool) : List (List Char) :=
  match language with
  | .javascript | .typescript => statements (.line Text.isBlank) script? text quoted
  | .rust => statements flush pub? text quoted
  | .go => statements flush capital? text quoted
  | .swift => statements flush attributed? text quoted
  | .kotlin => statements flush implicit? text quoted
  | .java => statements flush explicit? text quoted
  | .python => statements flush toplevel? text quoted
  | .unknown => []

end ReviewContext.Source.Exports
