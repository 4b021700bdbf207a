/-! # Fields of records

A record is read from the values of its fields, in whatever format they are written. A field may have to
be there, or have a default.
-/

namespace ReviewContext.Field

/-- A field that has to be there. -/
def required? {ν α : Type} (read : ν → Option α) (field : Option ν) : Option α :=
  field >>= read

/-- A field that has a default if it is missing. -/
def withDefault? {ν α : Type} (read : ν → Option α) (default : α) : Option ν → Option α
  | none => some default
  | some value => read value

end ReviewContext.Field
