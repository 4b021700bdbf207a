import ReviewContext.Discovery.Tests
import ReviewContext.Excerpt

/-! # Assembly of context

The files of a change get the context that the settings ask for. A strategy that fails is replaced once
by the fallback, and if that fails too the files are returned with the reason only, so that assembly
itself never fails.
-/

namespace ReviewContext

/-- Why a strategy could not be completed. -/
inductive DegradationReason where
  | fetch (error : AccessError)
  | relationships (file : String) (error : AccessError)
  deriving DecidableEq

def DegradationReason.message : DegradationReason → String
  | fetch error => "content fetch failed: " ++ error.message
  | relationships file error =>
    "relationship discovery failed for " ++ file ++ ": " ++ error.message

namespace Assembly

variable {σ : Type}

/-- A pass of a strategy; the reason of its failure may name a file. -/
abbrev Pass (σ : Type) := ExceptT DegradationReason (StateM (World σ))

/-- A run as a part of a pass. -/
def Pass.ofRun {α : Type} (reason : AccessError → DegradationReason) (run : Run σ α) : Pass σ α :=
  fun world =>
    match run world with
    | (.ok a, world) => (.ok a, world)
    | (.error e, world) => (.error (reason e), world)

def diffOnly (files : List ChangedFile) : List ChangedFile :=
  files.map fun file => { file with strategy := some .diffOnly }

/-- Starts the fetches of all files that are still there, in their order; gives the replies and the
state of the host when all have started. -/
def startFetches (host : Host σ) (settings : Settings) (ref : RepositoryRef) :
    List ChangedFile → σ → List (Option (Reply String)) × σ
  | [], state => ([], state)
  | file :: rest, state =>
    if file.isRemoved then
      let (replies, state) := startFetches host settings ref rest state
      (none :: replies, state)
    else
      let (reply, state) := host.fetch ref file.filename state
      let (replies, state) := startFetches host settings ref rest state
      (some (reply.within settings.requestTimeoutSecs) :: replies, state)

/-- The fatal error that comes first, and when: the earliest, and among equals the first started. -/
def firstFatal? : List (Reply String) → Option (Nat × AccessError)
  | [] => none
  | reply :: rest =>
    match reply.result with
    | .error e =>
      if e.isFatal then
        match firstFatal? rest with
        | some (delay, other) => if delay < reply.delay then some (delay, other) else some (reply.delay, e)
        | none => some (reply.delay, e)
      else firstFatal? rest
    | .ok _ => firstFatal? rest

/-- How long it takes until all replies have come. -/
def lastDelay (replies : List (Reply String)) : Nat :=
  replies.foldl (fun n reply => max n reply.delay) 0

/-- A file with the reply to its fetch. A removed file has no fetch, and a failed one leaves the patch
only and the reason. -/
def withReply (settings : Settings) (file : ChangedFile) : Option (Reply String) → ChangedFile
  | none => { file with strategy := some .diffOnly }
  | some ⟨_, .ok content⟩ =>
    { file with
      strategy := some .fullFiles
      fullContent := some (Excerpt.ofContent settings.maxFileSize content) }
  | some ⟨_, .error e⟩ =>
    { file with
      strategy := some .diffOnly
      degradation := some (DegradationReason.fetch e).message }

/-- Fetches all files at once. A fatal error ends the pass when it comes, even if other fetches are
still on their way. -/
def fullFiles (host : Host σ) (settings : Settings) (ref : RepositoryRef)
    (files : List ChangedFile) : Pass σ (List ChangedFile) :=
  fun world =>
    let (replies, state) := startFetches host settings ref files world.host
    let started := replies.filterMap id
    match firstFatal? started with
    | some (delay, e) => (.error (.fetch e), ⟨state, world.elapsed + delay⟩)
    | none =>
      (.ok (List.zipWith (withReply settings) files replies),
        ⟨state, world.elapsed + lastDelay started⟩)

/-- The related files of each file that has content, one file after the other. -/
def discoverEach (host : Host σ) (settings : Settings) (ref : RepositoryRef) :
    List ChangedFile → Pass σ (List (List RelatedFile))
  | [] => return []
  | file :: rest => do
    let found ← match file.fullContent with
      | some content =>
        Pass.ofRun (.relationships file.filename)
          (Discovery.discover host settings ref file.filename content)
      | none => pure []
    return found :: (← discoverEach host settings ref rest)

/-- All related files of a change, each once, as it was found first. -/
def pool (found : List (List RelatedFile)) : List RelatedFile :=
  (found.flatten.foldl
    (fun seen file => if seen.any (·.filename == file.filename) then seen else file :: seen)
    []).reverse

/-- The related files of the pool in the order in which they are offered to a file: first those that
were found for it, by the names in `own`, then the others. -/
def offered (own : List String) (pool : List RelatedFile) : List RelatedFile :=
  own.filterMap (fun name => pool.find? (·.filename == name)) ++
    pool.filter fun file => !own.contains file.filename

/-- Takes from the offered files as many as the limits allow, but never `filename` itself; `dependents`
and `tests` count those taken already. -/
def draw (settings : Settings) (filename : String) (dependents tests : Nat) :
    List RelatedFile → List RelatedFile
  | [] => []
  | file :: rest =>
    if min Text.maxWord (settings.maxDependents + settings.maxTests) ≤ dependents + tests then []
    else if file.filename == filename then draw settings filename dependents tests rest
    else
      let excerpt :=
        { file with content := Excerpt.ofContent settings.maxCharsPerFile file.content }
      match file.relationship with
      | .dependent =>
        if settings.maxDependents ≤ dependents then draw settings filename dependents tests rest
        else excerpt :: draw settings filename (dependents + 1) tests rest
      | .test =>
        if settings.maxTests ≤ tests then draw settings filename dependents tests rest
        else excerpt :: draw settings filename dependents (tests + 1) rest

/-- The bundle of a file for which `found` was found. -/
def bundle (settings : Settings) (filename : String) (found pool : List RelatedFile) : Bundle :=
  ⟨draw settings filename 0 0 (offered (Text.distinct (found.map (·.filename))) pool)⟩

/-- A file with its bundle, if it has content. -/
def withBundle (settings : Settings) (pool : List RelatedFile) (file : ChangedFile)
    (found : List RelatedFile) : ChangedFile :=
  if file.fullContent.isSome then
    { file with
      strategy := some .dependencyAware
      dependencies := some (bundle settings file.filename found pool) }
  else file

def dependencyAware (host : Host σ) (settings : Settings) (ref : RepositoryRef)
    (files : List ChangedFile) : Pass σ (List ChangedFile) := do
  let enriched ← fullFiles host settings ref files
  let found ← discoverEach host settings ref enriched
  return List.zipWith (withBundle settings (pool found)) enriched found

def run (host : Host σ) (settings : Settings) (ref : RepositoryRef) (strategy : Strategy)
    (files : List ChangedFile) : Pass σ (List ChangedFile) :=
  match strategy with
  | .diffOnly => return diffOnly files
  | .fullFiles => fullFiles host settings ref files
  | .dependencyAware => dependencyAware host settings ref files

/-- Files that got no context, with the reason. -/
def unenriched (reason : DegradationReason) (files : List ChangedFile) : List ChangedFile :=
  files.map fun file => { file with strategy := none, degradation := some reason.message }

end Assembly

/-- The files of a change with their context. -/
def assemble {σ : Type} (host : Host σ) (settings : Settings) (ref : RepositoryRef)
    (files : List ChangedFile) : StateM (World σ) (List ChangedFile) := do
  let requested := settings.effective settings.strategy
  match ← Assembly.run host settings ref requested files with
  | .ok enriched => return enriched
  | .error reason =>
    let fallback := settings.effective settings.fallback
    if fallback = requested then return Assembly.unenriched reason files
    match ← Assembly.run host settings ref fallback files with
    | .ok enriched => return enriched
    | .error reason => return Assembly.unenriched reason files

end ReviewContext
