import ReviewContext.RepositoryRef
import ReviewContext.Settings

/-! # Hosts

A host is where a repository lives: it fetches files at a revision and searches for candidates. It may
keep a state of its own, such as what it was asked, and it may take its time: a reply tells after how
many milliseconds it comes. A run asks a host, gives up what takes too long, and keeps the clock.
-/

namespace ReviewContext

/-- Why a host could not answer. -/
inductive AccessError where
  | notFound (what : String)
  | unauthorized (message : String)
  | rateLimited (message : String)
  | timeout (after : Duration)
  | api (message : String)
  | git (message : String)
  deriving DecidableEq

namespace AccessError

def message : AccessError → String
  | notFound what => "not found: " ++ what
  | unauthorized message => "access denied: " ++ message
  | rateLimited message => "rate limited: " ++ message
  | timeout after => "timed out after " ++ after.text
  | api message => "API error: " ++ message
  | git message => "git command failed: " ++ message

/-- Whether every further call would fail alike, so that there is no point in going on. -/
def isFatal : AccessError → Bool
  | unauthorized _ => true
  | _ => false

end AccessError

inductive Query where
  /-- Files whose text holds every term. -/
  | text (terms : List String)
  /-- Files with this name. -/
  | filename (name : String)
  deriving DecidableEq

/-- What a host answers, and after how many milliseconds. -/
structure Reply (α : Type) where
  delay : Nat
  result : Except AccessError α

/-- A reply that takes longer than `seconds` is not waited for. -/
def Reply.within {α : Type} (seconds : Nat) (reply : Reply α) : Reply α :=
  if 1000 * seconds < reply.delay then ⟨1000 * seconds, .error (.timeout (.ofSeconds seconds))⟩
  else reply

structure Host (σ : Type) where
  fetch : RepositoryRef → String → σ → Reply String × σ
  /-- Paths of candidates; the number is how many are wanted at most. -/
  search : RepositoryRef → Query → Nat → σ → Reply (List String) × σ

/-- The state of a host, and the milliseconds a run has waited. -/
structure World (σ : Type) where
  host : σ
  elapsed : Nat

/-- A run that asks a host; an error ends it. -/
abbrev Run (σ : Type) := ExceptT AccessError (StateM (World σ))

/-- Waits for a reply, at most `seconds`. -/
def Run.await {σ α : Type} (seconds : Nat) (call : σ → Reply α × σ) : Run σ α :=
  fun world =>
    let (reply, host) := call world.host
    let reply := reply.within seconds
    (reply.result, ⟨host, world.elapsed + reply.delay⟩)

/-- A run that goes on without an answer after any error that is not fatal. -/
def Run.attempt {σ α : Type} (run : Run σ α) : Run σ (Option α) :=
  fun world =>
    match run world with
    | (.ok a, world) => (.ok (some a), world)
    | (.error e, world) => (if e.isFatal then .error e else .ok none, world)

end ReviewContext
