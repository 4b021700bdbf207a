import ReviewContext.Language

/-! # Comments and literals of a language

What has to be known of a language to tell its comments and its string literals from its code.
-/

namespace ReviewContext

/-- Whether a language has block comments, and whether they may hold one another. -/
inductive BlockComments where
  | absent
  | flat
  | nested
  deriving DecidableEq

structure CommentStyle where
  /-- What starts a comment that ends with its line. -/
  lineMarker : List Char
  blocks : BlockComments
  /-- The characters that open and close a literal. -/
  quotes : List Char
  /-- Those of them whose literals may hold newlines. -/
  multiline : List Char
  /-- Whether a literal in three quotes is documentation. -/
  docstrings : Bool

/-- The style of a language; an unknown language has none. A single quote opens no literal in Rust,
where it marks a lifetime far more often than a character. -/
def Language.commentStyle? : Language → Option CommentStyle
  | .javascript | .typescript | .go => some ⟨['/', '/'], .flat, ['"', '\'', '\x60'], ['\x60'], false⟩
  | .rust => some ⟨['/', '/'], .nested, ['"'], ['"'], false⟩
  | .swift => some ⟨['/', '/'], .nested, ['"'], [], false⟩
  | .kotlin | .java => some ⟨['/', '/'], .flat, ['"', '\''], [], false⟩
  | .python => some ⟨['#'], .absent, ['"', '\''], [], true⟩
  | .unknown => none

end ReviewContext
