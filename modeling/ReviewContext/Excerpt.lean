import ReviewContext.Text.Basic

/-! # Excerpts

A text over a limit is cut after that many characters and ends in a marker that tells both lengths.
Lengths are counted in characters, so that a cut never splits one.
-/

namespace ReviewContext.Excerpt

def markerStart : List Char := "\n[... truncated from ".toList

def markerEnd : List Char := "characters ...]".toList

/-- What is put in the place of the characters beyond the first `kept` of `total`. -/
def marker (total kept : Nat) : List Char :=
  markerStart ++ (toString total).toList ++ " to ".toList ++ (toString kept).toList ++ [' '] ++
    markerEnd

/-- At most the first `limit` characters. -/
def truncate (limit : Nat) (text : List Char) : List Char :=
  if text.length ≤ limit then text else text.take limit ++ marker text.length limit

/-- Whether a text looks cut: it ends as a marker does, and a marker starts in it. -/
def isTruncated (text : List Char) : Bool :=
  Text.endsIn markerEnd text && Text.occursIn markerStart text

/-- A content of which at most `limit` characters are kept. -/
def ofContent (limit : Nat) (content : String) : String :=
  String.ofList (truncate limit content.toList)

end ReviewContext.Excerpt
