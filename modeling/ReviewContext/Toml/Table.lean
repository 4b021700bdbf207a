import ReviewContext.Toml.Basic

/-! # Tables of TOML

A table is put together from pairs of a row of keys and a value, and from headers. Every name is defined
once: a value or a table that was written down is never extended by another row of keys, but a table
that was only named on the way to another one may still get a header of its own, and an array of tables
grows by its headers.
-/

namespace ReviewContext.Toml

/-- How a table came about. -/
inductive Origin where
  /-- By a header, or as a whole. -/
  | written
  /-- On the way of a header. -/
  | passed
  /-- On the way of a row of keys. -/
  | dotted
  deriving DecidableEq

inductive Node where
  | value (v : Toml)
  | table (origin : Origin) (members : List (String × Node))
  /-- An array of tables, which all came about by a header. -/
  | tables (items : List (List (String × Node)))

abbrev Members := List (String × Node)

namespace Members

def get? (members : Members) (key : String) : Option Node :=
  (members.find? (·.1 == key)).map (·.2)

/-- Puts a node in the place of the one with its key, or behind all others. -/
def put (members : Members) (key : String) (node : Node) : Members :=
  if (members.get? key).isSome then
    members.map fun (other, old) => if other == key then (other, node) else (other, old)
  else members ++ [(key, node)]

/-- Changes the table that keys lead to; the tables on the way are made if they are missing. A way that
`dotted` keys go leads through no table that was written down, and the last of an array of tables stands
for all of it. -/
def within (dotted : Bool) (change : Origin → Members → Option Members) (origin : Origin)
    (members : Members) : List String → Option Members
  | [] => change origin members
  | key :: keys =>
    match members.get? key with
    | none => do
      let made := if dotted then Origin.dotted else Origin.passed
      return members.put key (.table made (← within dotted change made [] keys))
    | some (.value _) => none
    | some (.tables items) =>
      match items.getLast? with
      | none => none
      | some last => do
        return members.put key (.tables (items.dropLast ++ [← within dotted change .written last keys]))
    | some (.table origin inner) =>
      if dotted && origin = .written then none
      else do return members.put key (.table origin (← within dotted change origin inner keys))

/-- Adds a value to a table. A row of several keys ends in a table that rows of keys made, and a single
key in one that they did not make. -/
def addValue (isRow : Bool) (key : String) (value : Toml) (origin : Origin) (members : Members) :
    Option Members :=
  if (origin = .dotted) ≠ isRow then none
  else if (members.get? key).isSome then none
  else some (members.put key (.value value))

/-- A pair of a row of keys and a value. -/
abbrev Pair := List String × Toml

def addPair (members : Members) : Pair → Option Members
  | (keys, value) =>
    match keys.getLast? with
    | none => none
    | some key =>
      within true (addValue (1 < keys.length) key value) .written members keys.dropLast

def addPairs (members : Members) (pairs : List Pair) : Option Members :=
  pairs.foldlM addPair members

/-- Adds a table under a header, with its pairs. -/
def addTable (key : String) (pairs : List Pair) (members : Members) : Option Members :=
  match members.get? key with
  | none => do return members.put key (.table .written (← addPairs [] pairs))
  | some (.table .passed inner) => do
    return members.put key (.table .written (← addPairs inner pairs))
  | some _ => none

/-- Adds a table to an array of tables. -/
def addItem (key : String) (pairs : List Pair) (members : Members) : Option Members :=
  match members.get? key with
  | none => do return members.put key (.tables [← addPairs [] pairs])
  | some (.tables items) => do return members.put key (.tables (items ++ [← addPairs [] pairs]))
  | some _ => none

/-- A header with the pairs under it. -/
structure Section where
  /-- Whether the header adds to an array of tables. -/
  isItem : Bool
  keys : List String
  pairs : List Pair

def addSection (members : Members) (part : Section) : Option Members :=
  match part.keys.getLast? with
  | none => none
  | some key =>
    within false
      (fun _ inner =>
        if part.isItem then addItem key part.pairs inner else addTable key part.pairs inner)
      .written members part.keys.dropLast

end Members

mutual

def Node.toToml : Node → Toml
  | .value v => v
  | .table _ members => .table (membersToToml members)
  | .tables items => .array (itemsToToml items)

def membersToToml : List (String × Node) → List (String × Toml)
  | [] => []
  | (key, node) :: rest => (key, node.toToml) :: membersToToml rest

def itemsToToml : List (List (String × Node)) → List Toml
  | [] => []
  | item :: rest => .table (membersToToml item) :: itemsToToml rest

end

/-- The table of pairs between braces. -/
def ofPairs? (pairs : List Members.Pair) : Option Toml :=
  (Members.addPairs [] pairs).map fun members => .table (membersToToml members)

/-- The table of a whole document: pairs without a header, and sections. -/
def ofSections? (pairs : List Members.Pair) (sections : List Members.Section) : Option Toml := do
  let members ← sections.foldlM Members.addSection (← Members.addPairs [] pairs)
  return .table (membersToToml members)

end ReviewContext.Toml
