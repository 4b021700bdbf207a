import ReviewContext.Text.Basic
import ReviewContext.Text.Hex

/-! # JSON values

A number is kept as it is written, since nothing here computes with one; the members of an object stay
in their order and may repeat a name. Values are written in two ways: compact, and indented by two
spaces a level.
-/

namespace ReviewContext

inductive Json where
  | null
  | bool (b : Bool)
  /-- A number by its text. -/
  | number (literal : String)
  | string (s : String)
  | array (items : List Json)
  | object (members : List (String × Json))
  /-- A value that is well formed but denotes nothing: a string, or an object with a name, whose
  escapes or bytes are no text. -/
  | garbled

namespace Json

def ofNat (n : Nat) : Json :=
  number (toString n)

def ofStrings (ss : List String) : Json :=
  array (ss.map string)

/-- A value that may be missing; null stands for nothing. -/
def ofOption {α : Type} (f : α → Json) : Option α → Json
  | some a => f a
  | none => null

/-- A character of a string as it is written: quotes, backslashes and control characters are escaped,
the common ones by a letter. -/
def escape (c : Char) : List Char :=
  if c = '"' then ['\\', '"']
  else if c = '\\' then ['\\', '\\']
  else if c = '\n' then ['\\', 'n']
  else if c = '\r' then ['\\', 'r']
  else if c = '\t' then ['\\', 't']
  else if c = Char.ofNat 8 then ['\\', 'b']
  else if c = Char.ofNat 12 then ['\\', 'f']
  else if c.toNat < 32 then
    ['\\', 'u', '0', '0', Text.lowerHexDigit (c.toNat / 16),
      Text.lowerHexDigit (c.toNat % 16)]
  else [c]

/-- A string between quotes. -/
def quote (s : String) : List Char :=
  '"' :: s.toList.flatMap escape ++ ['"']

/-- The words of a value that holds no other. -/
def leaf : Json → List Char
  | null | garbled => "null".toList
  | bool b => (if b then "true" else "false").toList
  | number literal => literal.toList
  | string s => quote s
  | array _ | object _ => []

/-- Joins texts with a separator. -/
def joinWith (separator : List Char) (texts : List (List Char)) : List Char :=
  (texts.intersperse separator).flatten

mutual

/-- A value without any blanks. -/
def compact : Json → List Char
  | array items => '[' :: joinWith [','] (compactItems items) ++ [']']
  | object members => '\x7b' :: joinWith [','] (compactMembers members) ++ ['\x7d']
  | leafValue => leaf leafValue

def compactItems : List Json → List (List Char)
  | [] => []
  | item :: rest => compact item :: compactItems rest

def compactMembers : List (String × Json) → List (List Char)
  | [] => []
  | (name, value) :: rest => (quote name ++ ':' :: compact value) :: compactMembers rest

end

/-- A new line, indented by `level` steps. -/
def newLine (level : Nat) : List Char :=
  '\n' :: List.replicate (2 * level) ' '

/-- Items between brackets, each on a line of its own; nothing stands between the brackets if there
are none. -/
def block (opening closing : Char) (level : Nat) (items : List (List Char)) : List Char :=
  if items.isEmpty then [opening, closing]
  else
    opening :: newLine (level + 1) ++ joinWith (',' :: newLine (level + 1)) items ++
      newLine level ++ [closing]

mutual

/-- A value with each item on a line, `level` steps deep. -/
def indented (level : Nat) : Json → List Char
  | array items => block '[' ']' level (indentedItems (level + 1) items)
  | object members => block '\x7b' '\x7d' level (indentedMembers (level + 1) members)
  | leafValue => leaf leafValue

def indentedItems (level : Nat) : List Json → List (List Char)
  | [] => []
  | item :: rest => indented level item :: indentedItems level rest

def indentedMembers (level : Nat) : List (String × Json) → List (List Char)
  | [] => []
  | (name, value) :: rest =>
    (quote name ++ ':' :: ' ' :: indented level value) :: indentedMembers level rest

end

def pretty (value : Json) : String :=
  String.ofList (indented 0 value)

end Json

end ReviewContext
