import ReviewContext.Json.Basic
import ReviewContext.Text.Hex
import ReviewContext.Text.Utf8

/-! # Reading JSON

A reader of a text of JSON. The text is a list of characters in which nothing stands for bytes that are
no character. Such bytes may only stand in a string, and make it denote nothing; so does an escape of
one half of a surrogate pair. Each step takes some of the text and leaves the rest.
-/

namespace ReviewContext.Json

abbrev Symbols := List (Option Char)

def isSpace (c : Option Char) : Bool :=
  c == some ' ' || c == some '\n' || c == some '\t' || c == some '\r'

def skipSpace (text : Symbols) : Symbols :=
  text.dropWhile isSpace

/-- The number that four hexadecimal digits write. -/
def hex4? (a b c d : Option Char) : Option Nat := do
  Text.hexNumber? [← a, ← b, ← c, ← d]

/-- The character that a letter after a backslash stands for. -/
def shortEscape? : Char → Option Char
  | '"' => some '"'
  | '\\' => some '\\'
  | '/' => some '/'
  | 'b' => some (Char.ofNat 8)
  | 'f' => some (Char.ofNat 12)
  | 'n' => some '\n'
  | 'r' => some '\r'
  | 't' => some '\t'
  | _ => none

def isHighSurrogate (unit : Nat) : Bool :=
  0xD800 ≤ unit && unit ≤ 0xDBFF

def isLowSurrogate (unit : Nat) : Bool :=
  0xDC00 ≤ unit && unit ≤ 0xDFFF

/-- A part of a string: a character, half of a surrogate pair, or bytes that are neither. -/
inductive StringUnit where
  | char (c : Char)
  | half (unit : Nat)
  | stray

/-- What an escape by number stands for. -/
def StringUnit.ofNumber (n : Nat) : StringUnit :=
  if isHighSurrogate n || isLowSurrogate n then half n else char (Char.ofNat n)

/-- The rest of a string after its opening quote, up to its closing quote; the parts found so far are
given last first. -/
def stringBody? (found : List StringUnit) : Symbols → Option (List StringUnit × Symbols)
  | [] => none
  | some '"' :: rest => some (found.reverse, rest)
  | some '\\' :: some 'u' :: a :: b :: c :: d :: rest =>
    match hex4? a b c d with
    | some n => stringBody? (.ofNumber n :: found) rest
    | none => none
  | some '\\' :: some c :: rest =>
    match shortEscape? c with
    | some plain => stringBody? (.char plain :: found) rest
    | none => none
  | some c :: rest =>
    if c = '\\' || c.toNat < 32 then none else stringBody? (.char c :: found) rest
  | none :: rest => stringBody? (.stray :: found) rest

/-- The characters that parts of a string denote, if they denote any: the halves of surrogate pairs
have to stand together, the high one first. -/
def characters? : List StringUnit → Option (List Char)
  | [] => some []
  | .char c :: rest => (characters? rest).map (c :: ·)
  | .half high :: .half low :: rest =>
    if isHighSurrogate high && isLowSurrogate low then
      (characters? rest).map
        (Char.ofNat (0x10000 + (high - 0xD800) * 0x400 + (low - 0xDC00)) :: ·)
    else none
  | _ :: _ => none

def textOf? (body : List StringUnit) : Option String :=
  (characters? body).map String.ofList

def isDigit (c : Option Char) : Bool :=
  (c.map Char.isDigit).getD false

/-- One digit or more. -/
def digits? (text : Symbols) : Option (List Char × Symbols) :=
  match text.takeWhile isDigit with
  | [] => none
  | run => some (run.filterMap id, text.dropWhile isDigit)

/-- The part of a number behind its point, with the point, or nothing. -/
def fraction? : Symbols → Option (List Char × Symbols)
  | some '.' :: rest => (digits? rest).map fun (run, rest) => ('.' :: run, rest)
  | rest => some ([], rest)

def isExponentMark (c : Option Char) : Bool :=
  c == some 'e' || c == some 'E'

/-- The exponent of a number, or nothing. -/
def exponent? : Symbols → Option (List Char × Symbols)
  | some c :: some s :: rest =>
    if isExponentMark (some c) then
      if s = '+' || s = '-' then (digits? rest).map fun (run, rest) => (c :: s :: run, rest)
      else (digits? (some s :: rest)).map fun (run, rest) => (c :: run, rest)
    else some ([], some c :: some s :: rest)
  | some c :: rest => if isExponentMark (some c) then none else some ([], some c :: rest)
  | rest => some ([], rest)

/-- A number without its sign. A zero in front stands alone. -/
def unsigned? (text : Symbols) : Option (List Char × Symbols) := do
  let (whole, rest) ← digits? text
  if 1 < whole.length && whole.head? == some '0' then none
  else
    let (frac, rest) ← fraction? rest
    let (exp, rest) ← exponent? rest
    return (whole ++ frac ++ exp, rest)

def number? : Symbols → Option (Json × Symbols)
  | some '-' :: rest =>
    (unsigned? rest).map fun (digits, rest) => (number (String.ofList ('-' :: digits)), rest)
  | text => (unsigned? text).map fun (digits, rest) => (number (String.ofList digits), rest)

/-- What is left after a word. -/
def word? (word : String) (text : Symbols) : Option Symbols :=
  List.isPrefixOf? (word.toList.map some) text

/-- The object with these members; a name that denotes no text spoils it. -/
def objectOf (members : List (Option String × Json)) : Json :=
  match members.mapM fun (name?, value) => name?.map (·, value) with
  | some named => object named
  | none => garbled

mutual

/-- The value at the head of a text, and the rest. The fuel bounds the depth of the search. -/
def value? (fuel : Nat) (text : Symbols) : Option (Json × Symbols) :=
  match fuel with
  | 0 => none
  | fuel + 1 =>
    match skipSpace text with
    | some '"' :: rest =>
      (stringBody? [] rest).map fun (body, rest) => (((textOf? body).map string).getD garbled, rest)
    | some '[' :: rest =>
      match skipSpace rest with
      | some ']' :: rest => some (array [], rest)
      | rest => (items? fuel rest).map fun (items, rest) => (array items, rest)
    | some '\x7b' :: rest =>
      match skipSpace rest with
      | some '\x7d' :: rest => some (object [], rest)
      | rest => (members? fuel rest).map fun (members, rest) => (objectOf members, rest)
    | some 'n' :: rest => (word? "ull" rest).map (null, ·)
    | some 't' :: rest => (word? "rue" rest).map (bool true, ·)
    | some 'f' :: rest => (word? "alse" rest).map (bool false, ·)
    | text => number? text

/-- Items up to the closing bracket. -/
def items? (fuel : Nat) (text : Symbols) : Option (List Json × Symbols) :=
  match fuel with
  | 0 => none
  | fuel + 1 => do
    let (item, rest) ← value? fuel text
    match skipSpace rest with
    | some ',' :: rest => (items? fuel rest).map fun (items, rest) => (item :: items, rest)
    | some ']' :: rest => some ([item], rest)
    | _ => none

/-- Members up to the closing brace. -/
def members? (fuel : Nat) (text : Symbols) : Option (List (Option String × Json) × Symbols) :=
  match fuel with
  | 0 => none
  | fuel + 1 =>
    match skipSpace text with
    | some '"' :: rest => do
      let (name, rest) ← stringBody? [] rest
      match skipSpace rest with
      | some ':' :: rest =>
        let (value, rest) ← value? fuel rest
        let member := (textOf? name, value)
        match skipSpace rest with
        | some ',' :: rest =>
          (members? fuel rest).map fun (members, rest) => (member :: members, rest)
        | some '\x7d' :: rest => some ([member], rest)
        | _ => none
      | _ => none
    | _ => none

end

/-- The value that a whole text writes. -/
def ofSymbols? (text : Symbols) : Option Json :=
  match value? (2 * text.length + 2) text with
  | some (value, rest) => if (skipSpace rest).isEmpty then some value else none
  | none => none

def parse? (text : String) : Option Json :=
  ofSymbols? (text.toList.map some)

def ofBytes? (bytes : List UInt8) : Option Json :=
  ofSymbols? (Utf8.decodePartial bytes)

end ReviewContext.Json
