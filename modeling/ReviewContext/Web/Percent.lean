import ReviewContext.Text.Hex
import ReviewContext.Text.Utf8

/-! # Percent encoding

Characters with a meaning in a URL, and all characters beyond ASCII, are written as a percent sign and
two hexadecimal digits for each of their bytes. Which characters have a meaning depends on the part of
the URL. The fields of a form are encoded in a way of their own, with a plus sign for the space.
-/

namespace ReviewContext.Web

def percentByte (byte : UInt8) : List Char :=
  ['%', Text.upperHexDigit (byte.toNat / 16), Text.upperHexDigit (byte.toNat % 16)]

/-- A character by its bytes. -/
def percentChar (c : Char) : List Char :=
  (String.utf8EncodeChar c).flatMap percentByte

/-- Encodes the characters for which `inSet` holds. -/
def percentEncode (inSet : Char → Bool) (text : List Char) : List Char :=
  text.flatMap fun c => if inSet c then percentChar c else [c]

/-- Control characters, and everything beyond ASCII. -/
def isControlOrBeyond (c : Char) : Bool :=
  c.toNat < 32 || 127 ≤ c.toNat

def inFragmentSet (c : Char) : Bool :=
  isControlOrBeyond c || [' ', '"', '<', '>', '\x60'].contains c

def inPathSet (c : Char) : Bool :=
  inFragmentSet c || ['#', '?', '\x7b', '\x7d'].contains c

def inQuerySet (c : Char) : Bool :=
  isControlOrBeyond c || [' ', '"', '#', '<', '>', '\''].contains c

/-- The characters that a form field keeps. -/
def isFormSafe (c : Char) : Bool :=
  c.isAlphanum || ['*', '-', '.', '_'].contains c

/-- A name or a value of a form field. -/
def formEncode (text : List Char) : List Char :=
  text.flatMap fun c =>
    if isFormSafe c then [c] else if c = ' ' then ['+'] else percentChar c

end ReviewContext.Web
