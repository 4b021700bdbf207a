import ReviewContext.Text.Basic

/-! # Text with colours

A text is a row of pieces, some of which have a style. With colours a styled piece stands between the
sequence that switches its style on and the one that resets it. A reset inside of the piece would end
its style too early, so the style is switched on again after it.
-/

namespace ReviewContext.Report

inductive Style where
  | bold
  | dimmed
  | red
  | green
  | yellow
  | blue
  | cyan
  deriving DecidableEq

def Style.code : Style → List Char
  | bold => ['1']
  | dimmed => ['2']
  | red => ['3', '1']
  | green => ['3', '2']
  | yellow => ['3', '3']
  | blue => ['3', '4']
  | cyan => ['3', '6']

/-- A piece of text; a plain one has no styles. -/
structure Piece where
  styles : List Style
  text : List Char

def escape : Char := Char.ofNat 27

def reset : List Char := [escape, '[', '0', 'm']

/-- Switches styles on. -/
def switchOn (styles : List Style) : List Char :=
  escape :: '[' :: ((styles.map Style.code).intersperse [';']).flatten ++ ['m']

/-- Puts `more` behind every reset. -/
def afterResets (more : List Char) : List Char → List Char
  | [] => []
  | '\x1b' :: '[' :: '0' :: 'm' :: rest => reset ++ more ++ afterResets more rest
  | c :: cs => c :: afterResets more cs

namespace Piece

def plain (text : String) : Piece :=
  ⟨[], text.toList⟩

def coloured (piece : Piece) : List Char :=
  if piece.styles.isEmpty then piece.text
  else
    let start := switchOn piece.styles
    start ++ afterResets start piece.text ++ reset

end Piece

/-- Writes pieces with colours or without. -/
def write (colours : Bool) (pieces : List Piece) : List Char :=
  pieces.flatMap fun piece => if colours then piece.coloured else piece.text

end ReviewContext.Report
