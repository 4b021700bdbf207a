import ReviewContext.Strategy

/-! # Variables of the environment

A variable that is blank counts as not set, and blanks around a value do not count. A value that cannot
be read as what is asked for is passed over, so that a slip in a shell never stops a run.
-/

namespace ReviewContext

/-- Values by name. -/
abbrev Environment := List (String × String)

namespace Environment

/-- The value of a variable, if it is set. -/
def value? (environment : Environment) (name : String) : Option String := do
  let (_, value) ← environment.find? (·.1 == name)
  let trimmed := Text.trim value.toList
  if trimmed.isEmpty then none else some (String.ofList trimmed)

/-- The value of the first variable that is set. -/
def firstOf? (environment : Environment) (names : List String) : Option String :=
  names.findSome? environment.value?

def count? (environment : Environment) (name : String) : Option Nat :=
  environment.value? name >>= fun value => Text.readNat? Text.maxWord value.toList

def strategy? (environment : Environment) (name : String) : Option Strategy :=
  environment.value? name >>= Strategy.read?

/-- A switch by one of the words for on and off, in either case. -/
def switch? (environment : Environment) (name : String) : Option Bool := do
  let word := String.ofList (Text.lower (← environment.value? name).toList)
  if ["true", "1", "yes", "on"].contains word then some true
  else if ["false", "0", "no", "off"].contains word then some false
  else none

end Environment

end ReviewContext
