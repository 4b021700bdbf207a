import ReviewContext.Source.Stripped
import ReviewContext.Text.Word

/-! # Finding statements

A reader looks for one form of statement at the head of a text and tells what it names and what is
left. `statements` runs a reader over a whole text. Where a statement may start depends on its form:
at the start of a line, perhaps after blanks, or wherever a word starts. Statements do not overlap: the
search goes on after the end of the last one. A statement that starts inside a literal is only text; it
takes its place but is not reported.
-/

namespace ReviewContext.Source

/-- Where statements of a form may start. -/
inductive Anchor where
  /-- At the start of a line, after characters of the indent. -/
  | line (indent : Char → Bool)
  /-- Where no word character stands before. -/
  | word
  /-- At every character. -/
  | anywhere

namespace Anchor

/-- Whether a statement may start after `c`; `opens` tells whether one could have started at `c`. -/
def opensAfter (anchor : Anchor) (opens : Bool) (c : Char) : Bool :=
  match anchor with
  | line indent => c == '\n' || (opens && indent c)
  | word => !Text.isWord c
  | anywhere => true

/-- Whether one may start right after another. A statement never ends with a newline, and one that is
found by the start of a word ends with a parenthesis. -/
def opensAfterStatement : Anchor → Bool
  | line _ => false
  | word | anywhere => true

end Anchor

/-- Tells what a statement at the head of a text names, and what is left after the statement. -/
abbrev Reader (α : Type) := List Char → Option (α × List Char)

/-- What the statements of `text` name. The first `skip` characters still belong to the one before;
`opens` tells whether one may start at the first character. -/
def statementsFrom {α : Type} (anchor : Anchor) (read : Reader α) (opens : Bool) (skip : Nat) :
    (text : List Char) → (quoted : List Bool) → List α
  | [], _ => []
  | c :: cs, quoted =>
    match skip with
    | left + 1 => statementsFrom anchor read opens left cs quoted.tail
    | 0 =>
      match (if opens then read (c :: cs) else none) with
      | some (name, rest) =>
        let names := statementsFrom anchor read anchor.opensAfterStatement
          (cs.length - rest.length) cs quoted.tail
        if quoted.headD false then names else name :: names
      | none => statementsFrom anchor read (anchor.opensAfter opens c) 0 cs quoted.tail

/-- What the statements of a text name, in order. -/
def statements {α : Type} (anchor : Anchor) (read : Reader α) (text : List Char)
    (quoted : List Bool) : List α :=
  statementsFrom anchor read true 0 text quoted

/-! ## Pieces of statements -/

/-- What is left after a keyword. -/
def keyword? (word : String) (cs : List Char) : Option (List Char) :=
  List.isPrefixOf? word.toList cs

/-- What is left after one blank or more. -/
def gap? : List Char → Option (List Char)
  | [] => none
  | c :: cs => if Text.isBlank c then some (Text.trimStart cs) else none

/-- What is left after one of several keywords and a gap. -/
def oneOf? (keywords : List String) (cs : List Char) : Option (List Char) :=
  keywords.findSome? fun word => keyword? word cs >>= gap?

/-- What is left after a piece that may be missing. -/
def optional (piece : List Char → Option (List Char)) (cs : List Char) : List Char :=
  (piece cs).getD cs

/-- What is left after at most `bound` repetitions of a piece. -/
def repeated (piece : List Char → Option (List Char)) : (bound : Nat) → List Char → List Char
  | 0, cs => cs
  | bound + 1, cs =>
    match piece cs with
    | some rest => repeated piece bound rest
    | none => cs

/-- What is left after any number of repetitions of a piece that takes at least one character. -/
def many (piece : List Char → Option (List Char)) (cs : List Char) : List Char :=
  repeated piece cs.length cs

/-- The longest run of characters in a class, if there is one, and what is left. -/
def run? (inClass : Char → Bool) : Reader (List Char) := fun cs =>
  match cs.takeWhile inClass with
  | [] => none
  | run => some (run, cs.dropWhile inClass)

/-- A name that starts with an upper-case letter of ASCII. -/
def typeName? (inName : Char → Bool) : Reader (List Char)
  | [] => none
  | c :: cs => if c.isUpper then some (c :: cs.takeWhile inName, cs.dropWhile inName) else none

def isQuote (c : Char) : Bool :=
  c == '"' || c == '\''

/-- A text between quotes of either kind, on one line and not empty. -/
def quotedText? : Reader (List Char)
  | [] => none
  | c :: cs =>
    if isQuote c then do
      let (text, rest) ← run? (fun d => !isQuote d && d != '\n') cs
      match rest with
      | d :: after => if isQuote d then some (text, after) else none
      | [] => none
    else none

end ReviewContext.Source
