import ReviewContext.Duration
import ReviewContext.Environment
import ReviewContext.Toml.Basic

/-! # Settings of an assembly

Which strategy is asked for, which one is tried if it fails, and the limits on what is kept.
-/

namespace ReviewContext

structure Settings where
  strategy : Strategy := .dependencyAware
  fallback : Strategy := .fullFiles
  /-- Characters kept of a changed file. -/
  maxFileSize : Nat := 100000
  /-- Characters kept of a related file. -/
  maxCharsPerFile : Nat := 5000
  /-- Dependents accepted for a changed file. -/
  maxDependents : Nat := 5
  /-- Tests accepted for a changed file. -/
  maxTests : Nat := 3
  enableRelationships : Bool := true
  /-- After how many seconds a fetch or a search is given up. -/
  requestTimeoutSecs : Nat := 10
  deriving DecidableEq

namespace Settings

/-- The strategy that is run: without relationships there are whole files at most. -/
def effective (settings : Settings) (strategy : Strategy) : Strategy :=
  if strategy = .dependencyAware && !settings.enableRelationships then .fullFiles else strategy

def timeout (settings : Settings) : Duration :=
  .ofSeconds settings.requestTimeoutSecs

def toJson (settings : Settings) : Json :=
  .object [("enable_relationships", .bool settings.enableRelationships),
    ("fallback_strategy", settings.fallback.toJson),
    ("max_chars_per_file", .ofNat settings.maxCharsPerFile),
    ("max_dependents", .ofNat settings.maxDependents),
    ("max_file_size", .ofNat settings.maxFileSize), ("max_tests", .ofNat settings.maxTests),
    ("request_timeout_secs", .ofNat settings.requestTimeoutSecs),
    ("strategy", settings.strategy.toJson)]

def fieldNames : List String :=
  ["strategy", "fallback_strategy", "max_file_size", "max_chars_per_file", "max_dependents",
    "max_tests", "enable_relationships", "request_timeout_secs"]

/-- Reads settings from the values of their fields in any format, which tells how a strategy, a count
and a switch are read. Every field may be missing and has its default then. -/
def ofFields? {ν : Type} (strategy? : ν → Option Strategy) (count? : ν → Option Nat)
    (switch? : ν → Option Bool) (fields : List (Option ν)) : Option Settings := do
  let base : Settings := {}
  match fields with
  | [strategy, fallback, fileSize, charsPerFile, dependents, tests, relationships, timeout] =>
    return {
      strategy := ← Field.withDefault? strategy? base.strategy strategy
      fallback := ← Field.withDefault? strategy? base.fallback fallback
      maxFileSize := ← Field.withDefault? count? base.maxFileSize fileSize
      maxCharsPerFile := ← Field.withDefault? count? base.maxCharsPerFile charsPerFile
      maxDependents := ← Field.withDefault? count? base.maxDependents dependents
      maxTests := ← Field.withDefault? count? base.maxTests tests
      enableRelationships := ← Field.withDefault? switch? base.enableRelationships relationships
      requestTimeoutSecs := ← Field.withDefault? count? base.requestTimeoutSecs timeout }
  | _ => none

def ofJson? (value : Json) : Option Settings :=
  value.fields? fieldNames >>= ofFields? Strategy.ofJson? Json.count? Json.bool?

def ofToml? (value : Toml) : Option Settings :=
  value.fields? fieldNames >>=
    ofFields? (fun name => name.caseName? >>= Strategy.ofName?) Toml.count? Toml.bool?

/-- The settings with those of a layer above: what the layer leaves at its default stays as it is. -/
def overlaid (base above : Settings) : Settings :=
  let unset : Settings := {}
  let pick {α : Type} [DecidableEq α] (field : Settings → α) : α :=
    if field above = field unset then field base else field above
  { strategy := pick strategy
    fallback := pick fallback
    maxFileSize := pick maxFileSize
    maxCharsPerFile := pick maxCharsPerFile
    maxDependents := pick maxDependents
    maxTests := pick maxTests
    enableRelationships := pick enableRelationships
    requestTimeoutSecs := pick requestTimeoutSecs }

/-- The settings with those that variables of the environment give. -/
def withEnvironment (environment : Environment) (base : Settings) : Settings :=
  { strategy := (environment.strategy? "REVIEWCTX_STRATEGY").getD base.strategy
    fallback := (environment.strategy? "REVIEWCTX_FALLBACK_STRATEGY").getD base.fallback
    maxFileSize := (environment.count? "REVIEWCTX_MAX_FILE_SIZE").getD base.maxFileSize
    maxCharsPerFile := (environment.count? "REVIEWCTX_MAX_CHARS_PER_FILE").getD base.maxCharsPerFile
    maxDependents := (environment.count? "REVIEWCTX_MAX_DEPENDENTS").getD base.maxDependents
    maxTests := (environment.count? "REVIEWCTX_MAX_TESTS").getD base.maxTests
    enableRelationships :=
      (environment.switch? "REVIEWCTX_ENABLE_RELATIONSHIPS").getD base.enableRelationships
    requestTimeoutSecs :=
      (environment.count? "REVIEWCTX_REQUEST_TIMEOUT").getD base.requestTimeoutSecs }

/-- A switch in words. -/
def shownSwitch (on : Bool) : String :=
  if on then "true" else "false"

/-- The settings as they are shown to people. -/
def shown (settings : Settings) : String :=
  "ContextConfig \x7b strategy: " ++ settings.strategy.shown ++ ", fallback_strategy: " ++
    settings.fallback.shown ++ ", max_file_size: " ++ toString settings.maxFileSize ++
    ", max_chars_per_file: " ++ toString settings.maxCharsPerFile ++ ", max_dependents: " ++
    toString settings.maxDependents ++ ", max_tests: " ++ toString settings.maxTests ++
    ", enable_relationships: " ++ shownSwitch settings.enableRelationships ++
    ", request_timeout_secs: " ++ toString settings.requestTimeoutSecs ++ " \x7d"

end Settings

end ReviewContext
