import ReviewContext.Source.Token

/-! # Source text without comments

What is left of a source when its comments are gone: the text, and where in it literals stand. A place
is a byte offset; a literal takes the bytes from its start up to, and without, its stop.
-/

namespace ReviewContext.Source

structure Span where
  start : Nat
  stop : Nat
  deriving DecidableEq

def Span.contains (span : Span) (pos : Nat) : Bool :=
  span.start ≤ pos && pos < span.stop

/-- The number of bytes a text takes. -/
def byteLength (cs : List Char) : Nat :=
  cs.foldl (fun n c => n + c.utf8Size) 0

structure Stripped where
  text : List Char
  /-- The literals in the text, ascending. -/
  strings : List Span
  deriving DecidableEq

namespace Stripped

/-- The spans of the literals among `tokens`, the first of which starts at the byte `offset`. -/
def spansFrom (offset : Nat) : List Token → List Span
  | [] => []
  | token :: rest =>
    let stop := offset + byteLength token.kept
    if token.isLiteral then ⟨offset, stop⟩ :: spansFrom stop rest else spansFrom stop rest

def ofTokens (tokens : List Token) : Stripped :=
  ⟨tokens.flatMap Token.kept, spansFrom 0 tokens⟩

/-- Whether the byte at `pos` belongs to a literal: the first literal that ends after it decides. -/
def inString (stripped : Stripped) (pos : Nat) : Bool :=
  match stripped.strings.dropWhile (·.stop ≤ pos) with
  | [] => false
  | span :: _ => span.start ≤ pos

end Stripped

/-- A source text without its comments. -/
def strip (style : CommentStyle) (source : List Char) : Stripped :=
  Stripped.ofTokens (tokens style source)

/-- For each character that is left, whether it belongs to a literal. -/
def quotation (tokens : List Token) : List Bool :=
  tokens.flatMap fun token => token.kept.map fun _ => token.isLiteral

end ReviewContext.Source
