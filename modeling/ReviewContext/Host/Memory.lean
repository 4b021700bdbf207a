import ReviewContext.Host.Basic
import ReviewContext.Path

/-! # A repository in memory

A host that holds its files itself and answers by rules: a rule may delay a call, fail it, or give the
hits of a search, and it may hold for a number of calls only. Every call is noted when it starts.
-/

namespace ReviewContext

structure MemoryRule where
  error? : Option AccessError
  delay : Nat
  hits? : Option (List String)
  /-- For how many more calls the rule holds. -/
  times? : Option Nat

/-- Rules by the key of the call; `*` stands for every call without a rule of its own. -/
abbrev MemoryRules := List (String × MemoryRule)

namespace MemoryRules

/-- Puts a rule in the place of the one with its key. -/
def put (key : String) (rule : MemoryRule) (rules : MemoryRules) : MemoryRules :=
  (key, rule) :: rules.filter (·.1 != key)

def has (key : String) (rules : MemoryRules) : Bool :=
  rules.any (·.1 == key)

/-- The rule for a call, and the rules after it. A rule that has held often enough holds no more, and
keeps the call from any other. -/
def take (key : String) (rules : MemoryRules) : Option MemoryRule × MemoryRules :=
  let key := if rules.has key then key else "*"
  match rules.find? (·.1 == key) with
  | none => (none, rules)
  | some (_, rule) =>
    match rule.times? with
    | none => (some rule, rules)
    | some 0 => (none, rules)
    | some (left + 1) => (some rule, rules.put key { rule with times? := some left })

end MemoryRules

structure MemoryRepository where
  /-- Contents by path, in ascending order. -/
  files : List (String × String)
  fetchRules : MemoryRules
  searchRules : MemoryRules
  /-- The calls, the last first. -/
  calls : List String

namespace MemoryRepository

/-- Puts a file in its place in the order of paths. -/
def insert (path content : String) : List (String × String) → List (String × String)
  | [] => [(path, content)]
  | (p, c) :: rest =>
    if p < path then (p, c) :: insert path content rest
    else if p = path then (path, content) :: rest
    else (path, content) :: (p, c) :: rest

def setFile (path content : String) (repo : MemoryRepository) : MemoryRepository :=
  { repo with files := insert path content repo.files }

def removeFile (path : String) (repo : MemoryRepository) : MemoryRepository :=
  { repo with files := repo.files.filter (·.1 != path) }

def content? (repo : MemoryRepository) (path : String) : Option String :=
  (repo.files.find? (·.1 == path)).map (·.2)

/-- The key of a search among the rules. -/
def queryKey : Query → String
  | .text terms => "text:" ++ String.intercalate " " terms
  | .filename name => "filename:" ++ name

def isMatch (query : Query) (path content : String) : Bool :=
  match query with
  | .text terms => terms.all fun term => Text.occursIn term.toList content.toList
  | .filename name => Text.occursIn name.toList (Path.fileName path).toList

/-- The paths of the files that a query is after. -/
def hits (repo : MemoryRepository) (query : Query) : List String :=
  (repo.files.filter fun (path, content) => isMatch query path content).map (·.1)

def note (call : String) (repo : MemoryRepository) : MemoryRepository :=
  { repo with calls := call :: repo.calls }

def fetch (ref : RepositoryRef) (path : String) (repo : MemoryRepository) :
    Reply String × MemoryRepository :=
  let (rule?, fetchRules) := repo.fetchRules.take path
  let stored := match repo.content? path with
    | some content => .ok content
    | none => .error (.notFound path)
  let reply := match rule? with
    | none => ⟨0, stored⟩
    | some rule => ⟨rule.delay, (rule.error?.map .error).getD stored⟩
  (reply, ({ repo with fetchRules }).note ("fetch " ++ ref.display ++ " " ++ path))

def search (ref : RepositoryRef) (query : Query) (limit : Nat) (repo : MemoryRepository) :
    Reply (List String) × MemoryRepository :=
  let key := queryKey query
  let (rule?, searchRules) := repo.searchRules.take key
  let found := (repo.hits query).take limit
  let reply := match rule? with
    | none => ⟨0, .ok found⟩
    | some rule => ⟨rule.delay, (rule.error?.map .error).getD (.ok (rule.hits?.getD found))⟩
  (reply, ({ repo with searchRules }).note
    ("search " ++ ref.display ++ " " ++ key ++ " limit " ++ toString limit))

def host : Host MemoryRepository where
  fetch := fetch
  search := search

end MemoryRepository

end ReviewContext
