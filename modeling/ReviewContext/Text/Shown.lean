import ReviewContext.Text.Printable

/-! # Text shown to people

A text between quotes in which nothing is hidden: quotes, backslashes and line ends are escaped by a
letter, and a character that is not printable, or that joins onto the one before it, is shown by its
number.
-/

namespace ReviewContext.Text

/-- A number in hexadecimal digits. -/
def hexDigits (n : Nat) : List Char :=
  (Nat.toDigits 16 n)

def showChar (c : Char) : List Char :=
  if c = Char.ofNat 0 then ['\\', '0']
  else if c = '\t' then ['\\', 't']
  else if c = '\r' then ['\\', 'r']
  else if c = '\n' then ['\\', 'n']
  else if c = '\\' then ['\\', '\\']
  else if c = '"' then ['\\', '"']
  else if isPrintable c && !extendsPrevious c then [c]
  else '\\' :: 'u' :: '\x7b' :: hexDigits c.toNat ++ ['\x7d']

def shown (s : String) : String :=
  String.ofList ('"' :: s.toList.flatMap showChar ++ ['"'])

/-- A secret is shown as being there, but not what it is. -/
def shownSecret : Option String → String
  | some _ => "Some(\"[REDACTED]\")"
  | none => "None"

end ReviewContext.Text
