/-! # Base64

The standard alphabet in groups of four symbols for three bytes. The last group may be short and is
then filled up with `=`. The decoder takes only what an encoder would write: the filling has to be
there, and the bits of the last symbol that belong to no byte have to be zero.
-/

namespace ReviewContext.Base64

inductive Fault where
  | symbol (byte : UInt8) (offset : Nat)
  | lastSymbol (byte : UInt8) (offset : Nat)
  | length (symbols : Nat)
  | padding
  deriving DecidableEq

def Fault.message : Fault → String
  | symbol byte offset =>
    "Invalid symbol " ++ toString byte.toNat ++ ", offset " ++ toString offset ++ "."
  | lastSymbol byte offset =>
    "Invalid last symbol " ++ toString byte.toNat ++ ", offset " ++ toString offset ++ "."
  | length symbols => "Invalid input length: " ++ toString symbols
  | padding => "Invalid padding"

/-- The filling character `=`. -/
def pad : UInt8 := 0x3D

/-- The six bits a symbol stands for. -/
def value? (symbol : UInt8) : Option Nat :=
  let n := symbol.toNat
  if 0x41 ≤ n && n ≤ 0x5A then some (n - 0x41)
  else if 0x61 ≤ n && n ≤ 0x7A then some (n - 0x61 + 26)
  else if 0x30 ≤ n && n ≤ 0x39 then some (n - 0x30 + 52)
  else if n == 0x2B then some 62
  else if n == 0x2F then some 63
  else none

/-- The values of a run of symbols, the first of which stands at `offset`. -/
def values (offset : Nat) : List UInt8 → Except Fault (List Nat)
  | [] => .ok []
  | symbol :: rest =>
    match value? symbol with
    | none => .error (.symbol symbol offset)
    | some v => (values (offset + 1) rest).map (v :: ·)

/-- The bytes of two, three or four values; bits beyond the last whole byte are left out. -/
def bytesOf : List Nat → List UInt8
  | [a, b] => [UInt8.ofNat (a * 4 + b / 16)]
  | [a, b, c] => [UInt8.ofNat (a * 4 + b / 16), UInt8.ofNat (b % 16 * 16 + c / 4)]
  | [a, b, c, d] =>
    [UInt8.ofNat (a * 4 + b / 16), UInt8.ofNat (b % 16 * 16 + c / 4), UInt8.ofNat (c % 4 * 64 + d)]
  | _ => []

/-- The bits of the last value that belong to no byte. -/
def spareBits : List Nat → Nat
  | [_, b] => b % 16
  | [_, _, c] => c % 4
  | _ => 0

/-- Decodes the last group, at most four characters, which stands at `offset`. -/
def decodeLast (offset : Nat) (group : List UInt8) : Except Fault (List UInt8) := do
  let symbols := group.takeWhile (· != pad)
  let filling := group.dropWhile (· != pad)
  let vs ← values offset symbols
  if !filling.isEmpty && (symbols.length < 2 || filling.any (· != pad)) then
    throw (.symbol pad (offset + symbols.length))
  if !group.isEmpty && symbols.length < 2 then throw (.length (offset + symbols.length))
  if group.length % 4 != 0 then throw .padding
  if spareBits vs != 0 then
    throw (.lastSymbol (symbols.getLast?.getD pad) (offset + symbols.length - 1))
  return bytesOf vs

/-- Decodes from `offset` on. Only the last group may be short or filled. -/
def decodeFrom (offset : Nat) : List UInt8 → Except Fault (List UInt8)
  | a :: b :: c :: d :: e :: rest => do
    let vs ← values offset [a, b, c, d]
    let bytes ← decodeFrom (offset + 4) (e :: rest)
    return bytesOf vs ++ bytes
  | group => decodeLast offset group

/-- A single character too much is reported before anything else if it is no symbol. -/
def strayEnd? (text : List UInt8) : Option Fault :=
  match text.getLast? with
  | some last =>
    if text.length % 4 == 1 && last != pad && (value? last).isNone then
      some (.symbol last (text.length - 1))
    else none
  | none => none

def decode (text : List UInt8) : Except Fault (List UInt8) :=
  match strayEnd? text with
  | some fault => .error fault
  | none => decodeFrom 0 text

end ReviewContext.Base64
