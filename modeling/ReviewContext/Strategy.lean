import ReviewContext.Json.Fields
import ReviewContext.Text.Lowercase

/-! # Strategies

How much context is put together for each changed file, from the patch alone to verified related files.
-/

namespace ReviewContext

inductive Strategy where
  /-- The patch only; nothing is fetched. -/
  | diffOnly
  /-- The patch and the whole file. -/
  | fullFiles
  /-- The whole file with its verified dependents and tests. -/
  | dependencyAware
  deriving DecidableEq

namespace Strategy

def all : List Strategy :=
  [diffOnly, fullFiles, dependencyAware]

def name : Strategy → String
  | diffOnly => "diff_only"
  | fullFiles => "full_files"
  | dependencyAware => "dependency_aware"

def ofName? (s : String) : Option Strategy :=
  all.find? (·.name == s)

/-- A name as people write it: in either case, with hyphens for underscores. -/
def normalise (s : String) : String :=
  String.ofList ((Text.lower s.toList).map fun c => if c = '-' then '_' else c)

/-- Reads a name as people write it; there are short forms. -/
def read? (s : String) : Option Strategy :=
  let s := normalise s
  if s == "diff" then some diffOnly
  else if s == "full" then some fullFiles
  else if s == "deps" then some dependencyAware
  else ofName? s

def unsupported (s : String) : String :=
  "unsupported strategy: '" ++ normalise s ++
    "'. Supported: diff_only, full_files, dependency_aware"

/-- The name as it is shown to people. -/
def shown : Strategy → String
  | diffOnly => "DiffOnly"
  | fullFiles => "FullFiles"
  | dependencyAware => "DependencyAware"

def toJson (strategy : Strategy) : Json :=
  .string strategy.name

def ofJson? (value : Json) : Option Strategy :=
  value.caseName? >>= ofName?

end Strategy

end ReviewContext
