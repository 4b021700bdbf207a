/-! # UTF-8

One decoder serves every reader of bytes. It cuts the bytes into characters and stray sequences, where
a stray sequence is the longest start of a character that breaks off; the strict readers refuse the
first stray sequence and say where it is, the lenient ones put a replacement character in its place.
-/

namespace ReviewContext.Utf8

inductive Piece where
  | char (c : Char)
  /-- Bytes that start no character; `cut` tells that only the end of the input broke it off. -/
  | stray (length : Nat) (cut : Bool)
  deriving DecidableEq

/-- For the first byte of a longer character: the range of the second byte, and how many follow it. -/
def lead? (a : UInt8) : Option (UInt8 × UInt8 × Nat) :=
  if 0xC2 ≤ a && a ≤ 0xDF then some (0x80, 0xBF, 0)
  else if a == 0xE0 then some (0xA0, 0xBF, 1)
  else if a == 0xED then some (0x80, 0x9F, 1)
  else if 0xE1 ≤ a && a ≤ 0xEF then some (0x80, 0xBF, 1)
  else if a == 0xF0 then some (0x90, 0xBF, 2)
  else if 0xF1 ≤ a && a ≤ 0xF3 then some (0x80, 0xBF, 2)
  else if a == 0xF4 then some (0x80, 0x8F, 2)
  else none

def isTail (b : UInt8) : Bool :=
  0x80 ≤ b && b ≤ 0xBF

def char2 (a b : UInt8) : Char :=
  Char.ofNat ((a.toNat - 0xC0) * 64 + (b.toNat - 0x80))

def char3 (a b c : UInt8) : Char :=
  Char.ofNat (((a.toNat - 0xE0) * 64 + (b.toNat - 0x80)) * 64 + (c.toNat - 0x80))

def char4 (a b c d : UInt8) : Char :=
  Char.ofNat ((((a.toNat - 0xF0) * 64 + (b.toNat - 0x80)) * 64 + (c.toNat - 0x80)) * 64 +
    (d.toNat - 0x80))

/-- The piece that starts with byte `a`, and how many of the bytes after `a` belong to it. -/
def first (a : UInt8) (rest : List UInt8) : Piece × Nat :=
  if a < 0x80 then (.char (Char.ofNat a.toNat), 0)
  else
    match lead? a, rest with
    | none, _ => (.stray 1 false, 0)
    | some _, [] => (.stray 1 true, 0)
    | some (low, high, more), b :: rest =>
      if !(low ≤ b && b ≤ high) then (.stray 1 false, 0)
      else
        match more, rest with
        | 0, _ => (.char (char2 a b), 1)
        | _, [] => (.stray 2 true, 1)
        | more + 1, c :: rest =>
          if !isTail c then (.stray 2 false, 1)
          else
            match more, rest with
            | 0, _ => (.char (char3 a b c), 2)
            | _, [] => (.stray 3 true, 2)
            | _, d :: _ => if isTail d then (.char (char4 a b c d), 3) else (.stray 3 false, 2)

/-- The pieces of a text of bytes, the first `skip` of which are dealt with already. -/
def piecesFrom (skip : Nat) : List UInt8 → List Piece
  | [] => []
  | a :: rest =>
    match skip with
    | left + 1 => piecesFrom left rest
    | 0 =>
      let (piece, more) := first a rest
      piece :: piecesFrom more rest

def pieces (bytes : List UInt8) : List Piece :=
  piecesFrom 0 bytes

def encode (cs : List Char) : List UInt8 :=
  cs.flatMap String.utf8EncodeChar

def Piece.lenient : Piece → Char
  | char c => c
  | stray _ _ => Char.ofNat 0xFFFD

/-- Reads bytes as text; a stray sequence becomes one replacement character. -/
def decodeLenient (bytes : List UInt8) : List Char :=
  (pieces bytes).map Piece.lenient

/-- Reads bytes as text, with nothing in the place of a stray sequence. -/
def decodePartial (bytes : List UInt8) : List (Option Char) :=
  (pieces bytes).map fun
    | .char c => some c
    | .stray _ _ => none

/-- Where a text stops being UTF-8: the offset of the first stray sequence, and its length unless the
end of the text broke it off. -/
structure Fault where
  offset : Nat
  length? : Option Nat
  deriving DecidableEq

def Fault.message (fault : Fault) : String :=
  match fault.length? with
  | some length =>
    "invalid utf-8 sequence of " ++ toString length ++ " bytes from index " ++ toString fault.offset
  | none => "incomplete utf-8 byte sequence from index " ++ toString fault.offset

/-- The characters of pieces that hold no stray sequence; the first piece stands at `offset`. -/
def charactersFrom (offset : Nat) (found : List Char) : List Piece → Except Fault (List Char)
  | [] => .ok found.reverse
  | .char c :: rest => charactersFrom (offset + c.utf8Size) (c :: found) rest
  | .stray length cut :: _ => .error ⟨offset, if cut then none else some length⟩

/-- Reads bytes as text and refuses anything that is not. -/
def decode (bytes : List UInt8) : Except Fault (List Char) :=
  charactersFrom 0 [] (pieces bytes)

end ReviewContext.Utf8
