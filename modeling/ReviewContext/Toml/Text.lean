import ReviewContext.Text.Hex
import ReviewContext.Toml.Basic

/-! # Blanks, keys and strings of TOML

Readers take something from the head of a text and give the rest. Line ends are newlines, with or
without a carriage return, and count as newlines in a string. A comment runs to the end of its line and
holds no control characters but tabs.
-/

namespace ReviewContext.Toml

/-- A reader takes a value from the head of a text and gives the rest. -/
abbrev Reader (α : Type) := List Char → Option (α × List Char)

def isBlank (c : Char) : Bool :=
  c = ' ' || c = '\t'

def skipBlanks (cs : List Char) : List Char :=
  cs.dropWhile isBlank

/-- What follows a line end at the head. -/
def afterLine? : List Char → Option (List Char)
  | '\n' :: rest => some rest
  | '\r' :: '\n' :: rest => some rest
  | _ => none

/-- Characters that may stand as they are in a comment or a literal string. -/
def isPlain (c : Char) : Bool :=
  c = '\t' || (32 ≤ c.toNat && c.toNat ≠ 127)

def skipComment : List Char → List Char
  | '#' :: rest => rest.dropWhile isPlain
  | cs => cs

/-- What follows the end of a line on which only blanks and a comment may be left. -/
def endLine? (cs : List Char) : Option (List Char) :=
  match skipComment (skipBlanks cs) with
  | [] => some []
  | rest => afterLine? rest

/-- Whether a character and what follows it may be passed over between the items of an array. -/
def isGap (c : Char) (rest : List Char) : Bool :=
  isBlank c || c = '\n' || (c = '\r' && rest.head? = some '\n')

/-- Passes over blanks, line ends and comments. -/
def skipLines (inComment : Bool) : List Char → List Char
  | [] => []
  | c :: rest =>
    if inComment then
      if c = '\n' then skipLines false rest
      else if isPlain c || (c = '\r' && rest.head? = some '\n') then skipLines true rest
      else c :: rest
    else if isGap c rest then skipLines false rest
    else if c = '#' then skipLines true rest
    else c :: rest

/-! ## Strings -/

/-- What the head of the rest of a string is. -/
inductive Step where
  /-- The end, after `more` further characters; quotes in front of it belong to the string. -/
  | close (quotes : List Char) (more : Nat)
  /-- A character, written with `more` further ones. -/
  | char (c : Char) (more : Nat)
  /-- A backslash at the end of a line: the blanks and line ends after it do not count. -/
  | fold
  | refuse

/-- Reads a string on from inside: `skip` characters are dealt with, `found` holds those read, the last
first. -/
def stringFrom (step : Char → List Char → Step) (skip : Nat) (folding : Bool) (found : List Char) :
    List Char → Option (String × List Char)
  | [] => none
  | c :: rest =>
    match skip with
    | left + 1 => stringFrom step left folding found rest
    | 0 =>
      if folding && isGap c rest then stringFrom step 0 true found rest
      else
        match step c rest with
        | .close quotes more => some (String.ofList (quotes ++ found).reverse, rest.drop more)
        | .char c more => stringFrom step more false (c :: found) rest
        | .fold => stringFrom step 0 true found rest
        | .refuse => none

/-- A quote inside a string of several lines. Three of them close it, but up to two more may stand in
front of those. -/
def quoteStep (quote : Char) (rest : List Char) : Step :=
  match (rest.takeWhile (· == quote)).length with
  | 0 | 1 => .char quote 0
  | 2 => .close [] 2
  | 3 => .close [quote] 3
  | _ => .close [quote, quote] 4

/-- A character by its number in hexadecimal digits; the halves of a pair are no characters. -/
def charOfDigits? (digits : List Char) : Option Char := do
  let n ← Text.hexNumber? digits
  if n < 0xD800 || (0xDFFF < n && n ≤ 0x10FFFF) then some (Char.ofNat n) else none

/-- A character by its number, in exactly `count` digits. -/
def numberStep (count : Nat) (digits : List Char) : Step :=
  if digits.length < count then .refuse
  else
    match charOfDigits? (digits.take count) with
    | some c => .char c (count + 1)
    | none => .refuse

/-- What follows a backslash. -/
def escapeStep : List Char → Step
  | 'b' :: _ => .char (Char.ofNat 8) 1
  | 't' :: _ => .char '\t' 1
  | 'n' :: _ => .char '\n' 1
  | 'f' :: _ => .char (Char.ofNat 12) 1
  | 'r' :: _ => .char '\r' 1
  | '"' :: _ => .char '"' 1
  | '\\' :: _ => .char '\\' 1
  | 'u' :: digits => numberStep 4 digits
  | 'U' :: digits => numberStep 8 digits
  | _ => .refuse

/-- A character without a meaning of its own, or a line end. -/
def plainStep (severalLines : Bool) (c : Char) (rest : List Char) : Step :=
  if isPlain c then .char c 0
  else if severalLines && c = '\n' then .char '\n' 0
  else if severalLines && c = '\r' && rest.head? = some '\n' then .char '\n' 1
  else .refuse

/-- A string with escapes. -/
def basicStep (severalLines : Bool) (c : Char) (rest : List Char) : Step :=
  if c = '"' then
    if severalLines then quoteStep '"' rest else .close [] 0
  else if c = '\\' then
    if severalLines && (afterLine? (skipBlanks rest)).isSome then .fold else escapeStep rest
  else plainStep severalLines c rest

/-- A string in which every character stands for itself. -/
def literalStep (severalLines : Bool) (c : Char) (rest : List Char) : Step :=
  if c = '\'' then
    if severalLines then quoteStep '\'' rest else .close [] 0
  else plainStep severalLines c rest

/-- A string of several lines, behind its opening quotes; a line end right there does not count. -/
def severalLines (step : Bool → Char → List Char → Step) : Reader String :=
  fun cs => stringFrom (step true) 0 false [] ((afterLine? cs).getD cs)

/-- A string on one line, behind its opening quote. -/
def oneLine (step : Bool → Char → List Char → Step) : Reader String :=
  stringFrom (step false) 0 false []

def quotedString : Reader String
  | '"' :: '"' :: '"' :: rest => severalLines basicStep rest
  | '"' :: rest => oneLine basicStep rest
  | '\'' :: '\'' :: '\'' :: rest => severalLines literalStep rest
  | '\'' :: rest => oneLine literalStep rest
  | _ => none

/-! ## Keys -/

def isBareKeyChar (c : Char) : Bool :=
  c.isAlphanum || c = '_' || c = '-'

def simpleKey : Reader String
  | '"' :: rest => oneLine basicStep rest
  | '\'' :: rest => oneLine literalStep rest
  | cs =>
    let name := cs.takeWhile isBareKeyChar
    if name.isEmpty then none else some (String.ofList name, cs.dropWhile isBareKeyChar)

/-- A row of keys between dots, of at most `most` keys. Blanks around a key do not count. -/
def keyPath : (most : Nat) → Reader (List String)
  | 0, _ => none
  | most + 1, cs => do
    let (key, rest) ← simpleKey (skipBlanks cs)
    match skipBlanks rest with
    | '.' :: rest =>
      let (keys, rest) ← keyPath most rest
      return (key :: keys, rest)
    | rest => return ([key], rest)

/-- How long a row of keys may be, and how deep values may be nested. -/
def depthLimit : Nat := 79

end ReviewContext.Toml
