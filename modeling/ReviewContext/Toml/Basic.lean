/-! # TOML values

Numbers with a fraction and dates are told apart from the rest, but nothing here computes with them, so
they are kept as they are written.
-/

namespace ReviewContext

inductive Toml where
  | string (s : String)
  | integer (n : Int)
  | boolean (b : Bool)
  /-- A number with a fraction or an exponent, or one that is none, by its text. -/
  | float (literal : String)
  /-- A date, a time of day, or both, by its text. -/
  | dateTime (literal : String)
  | array (items : List Toml)
  | table (members : List (String × Toml))

namespace Toml

/-- The member of a table; no name stands twice. -/
def member? (members : List (String × Toml)) (name : String) : Option Toml :=
  (members.find? (·.1 == name)).map (·.2)

/-- The fields of a record in the order of their names. A record is a table, or an array in that order;
what it holds beyond the fields does not count. -/
def fields? (names : List String) : Toml → Option (List (Option Toml))
  | table members => some (names.map (member? members))
  | array items =>
    some ((items.take names.length).map some ++ List.replicate (names.length - items.length) none)
  | _ => none

def string? : Toml → Option String
  | string s => some s
  | _ => none

def bool? : Toml → Option Bool
  | boolean b => some b
  | _ => none

/-- A count: an integer that is not negative. -/
def count? : Toml → Option Nat
  | integer (.ofNat n) => some n
  | _ => none

def isEmpty : Toml → Bool
  | table [] | array [] => true
  | _ => false

/-- The name of a case: a string, or a table whose one member has that name and holds nothing. -/
def caseName? : Toml → Option String
  | string s => some s
  | table [(name, value)] => if value.isEmpty then some name else none
  | _ => none

end Toml

end ReviewContext
