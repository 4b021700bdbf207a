/-! # Text as a list of characters

The operations on text that the other modules share: blanks, cutting at separators, lines, and the
search for one text inside another.
-/

namespace ReviewContext.Text

/-- The characters that separate words: the white space of every script. -/
def isBlank (c : Char) : Bool :=
  let n := c.toNat
  (9 ≤ n && n ≤ 13) || n == 0x20 || n == 0x85 || n == 0xA0 || n == 0x1680 ||
    (0x2000 ≤ n && n ≤ 0x200A) || n == 0x2028 || n == 0x2029 || n == 0x202F || n == 0x205F ||
    n == 0x3000

def trimStart (cs : List Char) : List Char :=
  cs.dropWhile isBlank

def trimEnd (cs : List Char) : List Char :=
  (cs.reverse.dropWhile isBlank).reverse

def trim (cs : List Char) : List Char :=
  trimEnd (trimStart cs)

/-- Whether `needle` stands somewhere in the text. -/
def occursIn (needle : List Char) : List Char → Bool
  | [] => needle.isEmpty
  | c :: cs => needle.isPrefixOf (c :: cs) || occursIn needle cs

/-- A needle occurs in a text if it is an infix of it. -/
theorem occursIn_iff_infix (needle cs : List Char) : occursIn needle cs = true ↔ needle <:+: cs := by
  induction cs with
  | nil => simp [occursIn]
  | cons c cs ih =>
    simp only [occursIn, Bool.or_eq_true, List.isPrefixOf_iff_prefix, ih, List.infix_cons_iff]

/-- Whether the text ends in `tail`. -/
def endsIn (tail cs : List Char) : Bool :=
  tail.isSuffixOf cs

/-- The pieces between the characters for which `isSeparator` holds; there is always one more
piece than there are separators. -/
def splitBy (isSeparator : Char → Bool) (cs : List Char) : List (List Char) :=
  cs.foldr
    (fun c pieces =>
      if isSeparator c then [] :: pieces
      else
        match pieces with
        | [] => [[c]]
        | piece :: rest => (c :: piece) :: rest)
    [[]]

def splitOn (separator : Char) (cs : List Char) : List (List Char) :=
  splitBy (· == separator) cs

/-- The words of a text, without the blanks between them. -/
def words (cs : List Char) : List (List Char) :=
  (splitBy isBlank cs).filter (!·.isEmpty)

/-- A line that ended in carriage return and newline loses both. -/
def withoutReturn (line : List Char) : List Char :=
  if line.getLast? = some '\r' then line.dropLast else line

/-- The lines of a text. Every newline ends a line, so a text that ends in one has no further line;
what follows the last newline keeps its carriage return. -/
def lines (cs : List Char) : List (List Char) :=
  let pieces := splitOn '\n' cs
  let last := pieces.getLast?.getD []
  pieces.dropLast.map withoutReturn ++ (if last.isEmpty then [] else [last])

/-- The first occurrence of each element, in order. -/
def distinct {α : Type} [BEq α] (xs : List α) : List α :=
  (xs.foldl (fun seen x => if seen.contains x then seen else x :: seen) []).reverse

/-- The distinct elements are those that are left when later copies are erased. -/
theorem distinct_eq_eraseDups {α : Type} [BEq α] (xs : List α) : distinct xs = xs.eraseDups := by
  have folded (seen : List α) :
      (xs.foldl (fun seen x => if seen.contains x then seen else x :: seen) seen).reverse =
        List.eraseDupsBy.loop (· == ·) xs seen := by
    induction xs generalizing seen with
    | nil => rfl
    | cons x rest ih =>
      rw [List.foldl_cons, ih, List.eraseDupsBy.loop, List.any_beq]
      cases seen.contains x <;> rfl
  exact folded []

/-- The number a text of ASCII digits writes, if it is one and at most `max`; one plus sign may
stand in front. -/
def readNat? (max : Nat) (cs : List Char) : Option Nat :=
  let digits := match cs with
    | '+' :: rest => rest
    | _ => cs
  if digits.isEmpty || !digits.all Char.isDigit then none
  else
    let n := Nat.ofDigitChars 10 digits 0
    if n ≤ max then some n else none

/-- The largest number that fits 64 bits: the bound of every count and limit. -/
def maxWord : Nat := 0xffffffffffffffff

end ReviewContext.Text
