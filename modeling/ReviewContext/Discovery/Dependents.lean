import ReviewContext.Host.Basic
import ReviewContext.Change.ChangedFile
import ReviewContext.Source.Record

/-! # Discovery of dependents

A search only suggests files. A suggested file becomes a dependent when its own text imports the target.
A target that declares nothing for others, or whose language has no imports within a repository, has no
dependents and is not searched for.
-/

namespace ReviewContext.Discovery

variable {σ : Type}

/-- The hits of a search; one that fails has none. -/
def candidates (host : Host σ) (settings : Settings) (ref : RepositoryRef) (query : Query)
    (limit : Nat) : Run σ (List String) := do
  let hits? ← (Run.await settings.requestTimeoutSecs (host.search ref query limit)).attempt
  return hits?.getD []

/-- The text of a candidate; one that cannot be fetched is passed over. -/
def candidateContent (host : Host σ) (settings : Settings) (ref : RepositoryRef) (path : String) :
    Run σ (Option String) :=
  (Run.await settings.requestTimeoutSecs (host.fetch ref path)).attempt

/-- Whether a hit may be a dependent at all, as far as its path tells. -/
def mayDepend (target path : String) : Bool :=
  path != target && !Path.isVendored path && Language.ofPath path != .unknown

/-- The dependents among the hits, after those accepted already. -/
def acceptDependents (host : Host σ) (settings : Settings) (ref : RepositoryRef) (target : String) :
    (hits : List String) → (accepted : List RelatedFile) → Run σ (List RelatedFile)
  | [], accepted => return accepted
  | path :: rest, accepted =>
    if settings.maxDependents ≤ accepted.length then return accepted
    else if !mayDepend target path then acceptDependents host settings ref target rest accepted
    else do
      let content? ← candidateContent host settings ref path
      acceptDependents host settings ref target rest <|
        match content? with
        | some content =>
          if (SourceRecord.parse path content).importsBaseName (Path.baseName target) then
            accepted ++ [⟨path, .dependent, content, target⟩]
          else accepted
        | none => accepted

/-- Twice as many hits are looked at as dependents are wanted. -/
def dependentBudget (settings : Settings) : Nat :=
  min Text.maxWord (2 * settings.maxDependents)

/-- Files that import `target`, which declares `exports`. -/
def findDependents (host : Host σ) (settings : Settings) (ref : RepositoryRef) (target : String)
    (exports : List String) : Run σ (List RelatedFile) :=
  let language := Language.ofPath target
  match language.importKeyword? with
  | some keyword =>
    if exports.isEmpty || settings.maxDependents = 0 || !language.hasRelativeImports then return []
    else do
      let budget := dependentBudget settings
      let hits ← candidates host settings ref (.text [keyword, Path.baseName target]) budget
      acceptDependents host settings ref target (hits.take budget) []
  | none => return []

end ReviewContext.Discovery
