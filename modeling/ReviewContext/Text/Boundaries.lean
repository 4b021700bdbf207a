/-! # Sets of code points given by their boundaries

A set of code points is listed by the ascending places where membership changes: the first number is
the first member, the second the first code point after that run, and so on. The published tables of
character properties are written down this way.
-/

namespace ReviewContext.Text

/-- Each boundary at or below `n` switches membership, so `n` is a member after an odd number. -/
def withinBoundaries (boundaries : Array Nat) (n : Nat) : Bool :=
  boundaries.foldl (fun inside b => if b ≤ n then !inside else inside) false

end ReviewContext.Text
