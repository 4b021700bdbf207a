import ReviewContext.Toml.Scalar
import ReviewContext.Toml.Table

/-! # Reading TOML

A document is a row of lines: pairs of keys and a value, and headers under which the pairs after them
stand. Only strings of several lines and arrays go on over the end of a line. A text that breaks any
rule is no document.
-/

namespace ReviewContext.Toml

open Members (Pair Section)

/-- The items of an array behind its opening bracket; a comma may follow the last one. The number bounds
how many there can be. -/
def itemsFrom (item : Reader Toml) (found : List Toml) : (most : Nat) → Reader (List Toml)
  | 0, _ => none
  | most + 1, cs =>
    match skipLines false cs with
    | ']' :: rest => some (found.reverse, rest)
    | cs => do
      let (value, rest) ← item cs
      match skipLines false rest with
      | ',' :: rest => itemsFrom item (value :: found) most rest
      | ']' :: rest => return ((value :: found).reverse, rest)
      | _ => none

/-- A row of keys, the equals sign, and a value. -/
def pair (item : Reader Toml) : Reader Pair :=
  fun cs => do
    let (keys, rest) ← keyPath depthLimit cs
    let (value, rest) ← item (skipBlanks (← after '=' rest))
    return ((keys, value), rest)

/-- The pairs of a table behind its opening brace, of which there is at least one. -/
def pairsFrom (item : Reader Toml) (found : List Pair) : (most : Nat) → Reader (List Pair)
  | 0, _ => none
  | most + 1, cs => do
    let (member, rest) ← pair item cs
    match skipBlanks rest with
    | ',' :: rest => pairsFrom item (member :: found) most rest
    | '\x7d' :: rest => return ((member :: found).reverse, rest)
    | _ => none

/-- A table behind its opening brace. -/
def inlineTable (item : Reader Toml) : Reader Toml :=
  fun cs =>
    match skipBlanks cs with
    | '\x7d' :: rest => some (.table [], rest)
    | cs => do
      let (pairs, rest) ← pairsFrom item [] cs.length cs
      return (← ofPairs? pairs, rest)

/-- A value in which others are nested at most `depth` deep. -/
def value : (depth : Nat) → Reader Toml
  | _, '"' :: rest => (quotedString ('"' :: rest)).map fun (s, rest) => (.string s, rest)
  | _, '\'' :: rest => (quotedString ('\'' :: rest)).map fun (s, rest) => (.string s, rest)
  | 0, '[' :: _ => none
  | 0, '\x7b' :: _ => none
  | depth + 1, '[' :: rest =>
    (itemsFrom (value depth) [] (rest.length + 1) rest).map fun (items, rest) => (.array items, rest)
  | depth + 1, '\x7b' :: rest => inlineTable (value depth) rest
  | _, cs => scalar cs

/-! ## Documents -/

/-- A header, as a section without pairs. -/
def header : Reader Section
  | '[' :: '[' :: rest => do
    let (keys, rest) ← keyPath depthLimit rest
    let rest ← after ']' (← after ']' rest)
    return (⟨true, keys, []⟩, rest)
  | '[' :: rest => do
    let (keys, rest) ← keyPath depthLimit rest
    return (⟨false, keys, []⟩, ← after ']' rest)
  | _ => none

/-- What was read of a document: the pairs before the first header, the sections, and the pairs under
the last header; all the last first. -/
structure Draft where
  sections : List Section
  /-- The header that pairs stand under, if there is one. -/
  current? : Option Section
  /-- The pairs before the first header. -/
  root : List Pair

namespace Draft

def addPair (draft : Draft) (member : Pair) : Draft :=
  match draft.current? with
  | none => { draft with root := member :: draft.root }
  | some part => { draft with current? := some { part with pairs := member :: part.pairs } }

/-- The sections that are complete when a header comes. -/
def closed (draft : Draft) : List Section :=
  match draft.current? with
  | none => draft.sections
  | some part => { part with pairs := part.pairs.reverse } :: draft.sections

def addHeader (draft : Draft) (part : Section) : Draft :=
  { draft with sections := draft.closed, current? := some part }

def toToml? (draft : Draft) : Option Toml :=
  ofSections? draft.root.reverse draft.closed.reverse

end Draft

/-- Reads the lines of a document on; the number bounds how many there can be. -/
def linesFrom (draft : Draft) : (most : Nat) → List Char → Option Draft
  | 0, _ => none
  | most + 1, cs =>
    match skipBlanks cs with
    | [] => some draft
    | '[' :: rest => do
      let (part, rest) ← header ('[' :: rest)
      linesFrom (draft.addHeader part) most (← endLine? rest)
    | cs =>
      match endLine? cs with
      | some rest => linesFrom draft most rest
      | none => do
        let (member, rest) ← pair (value depthLimit) cs
        linesFrom (draft.addPair member) most (← endLine? rest)

/-- A mark of the order of bytes may stand in front of a document. -/
def withoutMark : List Char → List Char
  | cs@(c :: rest) => if c = Char.ofNat 0xFEFF then rest else cs
  | [] => []

/-- Reads a document. -/
def parse? (text : String) : Option Toml := do
  let cs := withoutMark text.toList
  let draft ← linesFrom ⟨[], none, []⟩ (cs.length + 1) cs
  draft.toToml?

end ReviewContext.Toml
