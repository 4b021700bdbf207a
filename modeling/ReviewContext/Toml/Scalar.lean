import ReviewContext.Text.Basic
import ReviewContext.Toml.Text

/-! # Numbers, dates and words of TOML

A value that is no string and holds no other is one word. Digits may be parted by single underscores.
Integers fit 64 bits with their sign, and a number with a fraction may not be too large to be finite. A
date and a time of day may be parted by a blank instead of a letter.
-/

namespace ReviewContext.Toml

def isWordChar (c : Char) : Bool :=
  c.isAlphanum || ['_', '-', '+', '.', ':'].contains c

/-- The digits of a number, without the underscores between them. -/
def digits? (isDigit : Char → Bool) (cs : List Char) : Option (List Char) :=
  let groups := Text.splitOn '_' cs
  if groups.all fun group => !group.isEmpty && group.all isDigit then some groups.flatten else none

/-- The digits of a decimal number, the first of which is not zero unless it is the only one. -/
def decimal? (cs : List Char) : Option (List Char) := do
  let digits ← digits? Char.isDigit cs
  if digits.head? = some '0' && digits.length ≠ 1 then none else some digits

/-- A text without the sign in front of it, and whether that is a minus. -/
def splitSign : List Char → Bool × List Char
  | '+' :: rest => (false, rest)
  | '-' :: rest => (true, rest)
  | cs => (false, cs)

def valueIn (base : Nat) (digits : List Char) : Nat :=
  digits.foldl (fun n digit => base * n + (Text.hexValue? digit).getD 0) 0

def isHexDigit (c : Char) : Bool :=
  (Text.hexValue? c).isSome

def isOctalDigit (c : Char) : Bool :=
  c.isDigit && c ≠ '8' && c ≠ '9'

def isBinaryDigit (c : Char) : Bool :=
  c = '0' || c = '1'

/-- The largest integer that there is. -/
def maxInteger : Nat := 0x7fffffffffffffff

/-- An integer by its size and sign; there is one more below zero than above. -/
def integerOf? (negative : Bool) (n : Nat) : Option Int :=
  if negative then
    if n ≤ maxInteger + 1 then some (-(n : Int)) else none
  else if n ≤ maxInteger then some (n : Int)
  else none

def integer? : List Char → Option Int
  | '0' :: 'x' :: digits => digits? isHexDigit digits >>= fun ds => integerOf? false (valueIn 16 ds)
  | '0' :: 'o' :: digits => digits? isOctalDigit digits >>= fun ds => integerOf? false (valueIn 8 ds)
  | '0' :: 'b' :: digits => digits? isBinaryDigit digits >>= fun ds => integerOf? false (valueIn 2 ds)
  | cs =>
    let (negative, digits) := splitSign cs
    decimal? digits >>= fun ds => integerOf? negative (valueIn 10 ds)

/-! ## Numbers with a fraction -/

/-- Half way between the largest finite number of 64 bits and the power of two above it. -/
def finiteBound : Nat := Nat.pow 2 1024 - Nat.pow 2 970

/-- Whether `n * 10 ^ exponent` rounds to no finite number. A number is too large or small enough by
its digits alone unless it has about as many as the bound. -/
def isTooLarge (n : Nat) (exponent : Int) : Bool :=
  let digits : Int := (toString n).length
  if n = 0 || digits + exponent < 300 then false
  else if 320 < digits + exponent then true
  else
    match exponent with
    | .ofNat e => finiteBound ≤ n * Nat.pow 10 e
    | .negSucc e => finiteBound * Nat.pow 10 (e + 1) ≤ n

/-- A text up to the first of some characters, and what follows that one if there is one. -/
def splitAtAny (marks : List Char) (cs : List Char) : List Char × Option (List Char) :=
  match cs.dropWhile (!marks.contains ·) with
  | [] => (cs, none)
  | _ :: rest => (cs.takeWhile (!marks.contains ·), some rest)

/-- The digits of a part that may be missing. -/
def partDigits? : Option (List Char) → Option (List Char)
  | none => some []
  | some part => digits? Char.isDigit part

/-- The exponent behind its mark; there is none without one. -/
def exponent? : Option (List Char) → Option Int
  | none => some 0
  | some part =>
    let (negative, digits) := splitSign part
    (digits? Char.isDigit digits).map fun ds =>
      if negative then -(valueIn 10 ds : Int) else (valueIn 10 ds : Int)

/-- Whether a word is a number with a fraction, an exponent or both. -/
def isFraction (cs : List Char) : Bool :=
  let (negative, unsigned) := splitSign cs
  let (mantissa, exponent) := splitAtAny ['e', 'E'] unsigned
  let (whole, fraction) := splitAtAny ['.'] mantissa
  match decimal? whole, partDigits? fraction, exponent? exponent with
  | some whole, some part, some e =>
    (fraction.isSome || exponent.isSome) &&
      (negative || !isTooLarge (valueIn 10 (whole ++ part)) (e - part.length))
  | _, _, _ => false

/-- Whether a word is a number that is infinite, or none. -/
def isSpecial (cs : List Char) : Bool :=
  let unsigned := (splitSign cs).2
  unsigned == "inf".toList || unsigned == "nan".toList

/-! ## Dates -/

/-- The number that two digits at the head write, if it lies in a range. -/
def twoDigits (low high : Nat) : Reader Nat
  | a :: b :: rest =>
    if a.isDigit && b.isDigit then
      let n := valueIn 10 [a, b]
      if low ≤ n && n ≤ high then some (n, rest) else none
    else none
  | _ => none

/-- What follows a character that has to stand at the head. -/
def after (c : Char) : List Char → Option (List Char)
  | d :: rest => if c = d then some rest else none
  | [] => none

def daysOf (year month : Nat) : Nat :=
  if month = 2 then
    if year % 4 = 0 && (year % 100 ≠ 0 || year % 400 = 0) then 29 else 28
  else if [4, 6, 9, 11].contains month then 30
  else 31

/-- What follows a date at the head. -/
def afterDate? (cs : List Char) : Option (List Char) := do
  let (century, rest) ← twoDigits 0 99 cs
  let (year, rest) ← twoDigits 0 99 rest
  let (month, rest) ← twoDigits 1 12 (← after '-' rest)
  let (day, rest) ← twoDigits 1 31 (← after '-' rest)
  if day ≤ daysOf (100 * century + year) month then some rest else none

/-- What follows a part of a second at the head, if there is one. -/
def afterFraction? : List Char → Option (List Char)
  | '.' :: rest =>
    if (rest.takeWhile Char.isDigit).isEmpty then none else some (rest.dropWhile Char.isDigit)
  | cs => some cs

/-- What follows a time of day at the head. A minute may have one second more. -/
def afterTime? (cs : List Char) : Option (List Char) := do
  let (_, rest) ← twoDigits 0 23 cs
  let (_, rest) ← twoDigits 0 59 (← after ':' rest)
  let (_, rest) ← twoDigits 0 60 (← after ':' rest)
  afterFraction? rest

/-- Whether a text is the distance of a time zone, or nothing. -/
def isZone (cs : List Char) : Bool :=
  let distance : Option (List Char) := do
    let (_, rest) ← twoDigits 0 23 (splitSign cs).2
    let (_, rest) ← twoDigits 0 59 (← after ':' rest)
    return rest
  match cs with
  | [] | ['Z'] | ['z'] => true
  | '+' :: _ | '-' :: _ => distance == some []
  | _ => false

/-- Whether a text is a time of day, perhaps in a time zone. -/
def isZonedTime (cs : List Char) : Bool :=
  (afterTime? cs).any isZone

/-- Whether a word is a date, a time of day, or both. -/
def isDateTime (cs : List Char) : Bool :=
  afterTime? cs == some [] ||
    match afterDate? cs with
    | some [] => true
    | some (mark :: rest) => (mark = 'T' || mark = 't') && isZonedTime rest
    | none => false

/-! ## Words -/

def ofWord? (word : List Char) : Option Toml :=
  if word == "true".toList then some (.boolean true)
  else if word == "false".toList then some (.boolean false)
  else
    match integer? word with
    | some n => some (.integer n)
    | none =>
      if isFraction word || isSpecial word then some (.float (String.ofList word))
      else if isDateTime word then some (.dateTime (String.ofList word))
      else none

/-- The time of day that a date goes on with, behind a blank. -/
def timeBehind (cs : List Char) : List Char :=
  match cs with
  | ' ' :: rest => rest.takeWhile isWordChar
  | _ => []

/-- A value of one word. A date goes on if another word stands behind a blank. -/
def scalar : Reader Toml :=
  fun cs =>
    let word := cs.takeWhile isWordChar
    let rest := cs.dropWhile isWordChar
    let time := timeBehind rest
    if afterDate? word == some [] && !time.isEmpty then
      if isZonedTime time then
        some (.dateTime (String.ofList (word ++ ' ' :: time)), rest.drop (time.length + 1))
      else none
    else (ofWord? word).map fun value => (value, rest)

end ReviewContext.Toml
