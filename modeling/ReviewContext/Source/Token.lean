import ReviewContext.Source.CommentStyle

/-! # Tokens of a source text

A source text is cut into single characters of code, literals and comments. Every character belongs
to exactly one token, so the texts of the tokens join to the source again. A literal that may not hold
newlines ends before one, so that a forgotten quote does not swallow the rest of the file.
-/

namespace ReviewContext.Source

inductive Token where
  | code (c : Char)
  | literal (text : List Char)
  | lineComment (text : List Char)
  | blockComment (text : List Char)
  | docstring (text : List Char)
  deriving DecidableEq

namespace Token

/-- The part of the source that a token stands for. -/
def text : Token → List Char
  | code c => [c]
  | literal cs | lineComment cs | blockComment cs | docstring cs => cs

def newlines (cs : List Char) : List Char :=
  cs.filter (· == '\n')

/-- What is left of a token without comments. Newlines stay where they are, and a block comment
leaves a space so that the code around it does not join. -/
def kept : Token → List Char
  | code c => [c]
  | literal cs => cs
  | lineComment cs | docstring cs => newlines cs
  | blockComment cs => ' ' :: newlines cs

def isLiteral : Token → Bool
  | literal _ => true
  | _ => false

/-- How many characters close `depth + 1` block comments, or all there are. -/
def blockLength (nested : Bool) (depth : Nat) : List Char → Nat
  | [] => 0
  | [_] => 1
  | a :: b :: cs =>
    if a = '*' ∧ b = '/' then
      match depth with
      | 0 => 2
      | outer + 1 => blockLength nested outer cs + 2
    else if nested ∧ a = '/' ∧ b = '*' then blockLength nested (depth + 1) cs + 2
    else blockLength nested depth (b :: cs) + 1

/-- How many characters a literal has after its opening quote. A backslash takes the character after
it along. -/
def literalLength (quote : Char) (multiline : Bool) : List Char → Nat
  | [] => 0
  | ['\\'] => 1
  | '\\' :: _ :: cs => literalLength quote multiline cs + 2
  | c :: cs =>
    if c = '\n' ∧ !multiline then 0
    else if c = quote then 1
    else literalLength quote multiline cs + 1

/-- How many characters a docstring has after its opening quotes. -/
def docstringLength (quote : Char) : List Char → Nat
  | [] => 0
  | c :: cs =>
    if [quote, quote, quote].isPrefixOf (c :: cs) then 3 else docstringLength quote cs + 1

/-- Whether three equal quotes stand at the head. -/
def opensDocstring (source : List Char) : Bool :=
  ['"', '"', '"'].isPrefixOf source || ['\'', '\'', '\''].isPrefixOf source

/-- Whether a quote is the body of a character literal: a single quote, perhaps with a backslash,
stands before it and a single quote after it. `before` has the nearest character first. -/
def insideCharLiteral (before after : List Char) : Bool :=
  (['\''].isPrefixOf before || ['\\', '\''].isPrefixOf before) && ['\''].isPrefixOf after

/-- The token at the head of `c :: cs`, after the characters `before`, the nearest first. -/
def first (style : CommentStyle) (before : List Char) (c : Char) (cs : List Char) : Token :=
  let source := c :: cs
  if style.docstrings && opensDocstring source then
    docstring (source.take (docstringLength c (source.drop 3) + 3))
  else if style.lineMarker.isPrefixOf source then
    lineComment (c :: cs.takeWhile (· != '\n'))
  else if style.blocks ≠ .absent && ['/', '*'].isPrefixOf source then
    blockComment (source.take (blockLength (style.blocks = .nested) 0 (source.drop 2) + 2))
  else if style.quotes.contains c && !insideCharLiteral before cs then
    literal (source.take (literalLength c (style.multiline.contains c) cs + 1))
  else
    code c

/-- Every token takes at least one character, so that cutting comes to an end. -/
theorem first_text_length_pos (style : CommentStyle) (before : List Char) (c : Char)
    (cs : List Char) : 0 < (first style before c cs).text.length := by
  unfold first
  dsimp only
  split
  · simp only [text, List.length_take, List.length_cons]; omega
  split
  · simp [text]
  split
  · simp only [text, List.length_take, List.length_cons]; omega
  split
  · simp only [text, List.length_take, List.length_cons]; omega
  · simp [text]

/-- The tokens of `rest`, after those of `found`, the last of which comes first. -/
def collect (style : CommentStyle) (before rest : List Char) (found : List Token) : List Token :=
  match rest with
  | [] => found.reverse
  | c :: cs =>
    let token := first style before c cs
    collect style (token.text.reverse ++ before) ((c :: cs).drop token.text.length) (token :: found)
termination_by rest.length
decreasing_by
  have := first_text_length_pos style before c cs
  simp only [List.length_drop, List.length_cons]
  omega

end Token

/-- The tokens of a source text. -/
def tokens (style : CommentStyle) (source : List Char) : List Token :=
  Token.collect style [] source []

end ReviewContext.Source
