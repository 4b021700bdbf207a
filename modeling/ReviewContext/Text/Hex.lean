/-! # Hexadecimal digits

The digits of the numbers below sixteen. They are written in the case that a format asks for, and read
in either.
-/

namespace ReviewContext.Text

def lowerHexDigit (n : Nat) : Char :=
  if n < 10 then Char.ofNat (48 + n) else Char.ofNat (87 + n)

def upperHexDigit (n : Nat) : Char :=
  if n < 10 then Char.ofNat (48 + n) else Char.ofNat (55 + n)

def hexValue? (c : Char) : Option Nat :=
  let n := c.toNat
  if 48 ≤ n && n ≤ 57 then some (n - 48)
  else if 97 ≤ n && n ≤ 102 then some (n - 87)
  else if 65 ≤ n && n ≤ 70 then some (n - 55)
  else none

/-- The number that a row of digits writes. -/
def hexNumber? (digits : List Char) : Option Nat :=
  digits.foldlM (fun n digit => (hexValue? digit).map (16 * n + ·)) 0

end ReviewContext.Text
