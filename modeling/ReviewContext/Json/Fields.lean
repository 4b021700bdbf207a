import ReviewContext.Field
import ReviewContext.Json.Basic

/-! # Records in JSON

A record may be written as an object, by its field names, or as an array, by the order of its fields.
Either way reading gives a list of the fields in order, nothing for one that is missing. An object may
hold other members, but no field twice; an array has no room for more than the fields.
-/

namespace ReviewContext.Json

/-- The member of a given name: nothing if there is none, and no answer if there are several. -/
def member? (members : List (String × Json)) (name : String) : Option (Option Json) :=
  match members.filter (·.1 == name) with
  | [] => some none
  | [(_, value)] => some (some value)
  | _ => none

/-- The fields of a record, in the order of their names. -/
def fields? (names : List String) : Json → Option (List (Option Json))
  | object members => names.mapM (member? members)
  | array items =>
    if items.length ≤ names.length then
      some (items.map some ++ List.replicate (names.length - items.length) none)
    else none
  | _ => none

def string? : Json → Option String
  | string s => some s
  | _ => none

def bool? : Json → Option Bool
  | bool b => some b
  | _ => none

/-- A count: a number of digits alone that fits 64 bits. -/
def count? : Json → Option Nat
  | number literal =>
    if literal.toList.all Char.isDigit then Text.readNat? Text.maxWord literal.toList else none
  | _ => none

def array? : Json → Option (List Json)
  | array items => some items
  | _ => none

/-- A list of values that are all read alike. -/
def list? {α : Type} (read : Json → Option α) (value : Json) : Option (List α) :=
  array? value >>= List.mapM read

/-- The name of a case: a string, or an object whose one member has that name and holds nothing. -/
def caseName? : Json → Option String
  | string s => some s
  | object [(name, null)] => some name
  | _ => none

/-- A field that may be missing or null. -/
def optional? {α : Type} (read : Json → Option α) : Option Json → Option (Option α)
  | none | some null => some none
  | some value => (read value).map some

end ReviewContext.Json
