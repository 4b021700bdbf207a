import ReviewContext.Discovery.Dependents
import ReviewContext.TestName

/-! # Discovery of tests

Tests are searched for by the names they may have, the most common name first. A suggested file is a
test if it has exactly that name and mentions the target. A target that is a test itself has none.
-/

namespace ReviewContext.Discovery

variable {σ : Type}

/-- The tests among the hits for one name, after those accepted already. -/
def acceptTests (host : Host σ) (settings : Settings) (ref : RepositoryRef) (target name : String) :
    (hits : List String) → (accepted : List RelatedFile) → Run σ (List RelatedFile)
  | [], accepted => return accepted
  | path :: rest, accepted =>
    if settings.maxTests ≤ accepted.length then return accepted
    else if path == target || accepted.any (·.filename == path) || Path.fileName path != name then
      acceptTests host settings ref target name rest accepted
    else do
      let content? ← candidateContent host settings ref path
      acceptTests host settings ref target name rest <|
        match content? with
        | some content =>
          if Text.occursIn (Path.baseName target).toList content.toList then
            accepted ++ [⟨path, .test, content, target⟩]
          else accepted
        | none => accepted

/-- The tests under any of the names, after those accepted already. -/
def acceptNames (host : Host σ) (settings : Settings) (ref : RepositoryRef) (target : String) :
    (names : List String) → (accepted : List RelatedFile) → Run σ (List RelatedFile)
  | [], accepted => return accepted
  | name :: rest, accepted =>
    if settings.maxTests ≤ accepted.length then return accepted
    else do
      let hits ← candidates host settings ref (.filename name) settings.maxTests
      acceptNames host settings ref target rest
        (← acceptTests host settings ref target name hits accepted)

/-- Files that test `target`. -/
def findTests (host : Host σ) (settings : Settings) (ref : RepositoryRef) (target : String) :
    Run σ (List RelatedFile) :=
  if TestName.looksLikeTest target || settings.maxTests = 0 then return []
  else acceptNames host settings ref target (TestName.candidates target) []

/-- The related files of a file with this content: its dependents, then its tests. -/
def discover (host : Host σ) (settings : Settings) (ref : RepositoryRef) (filename content : String) :
    Run σ (List RelatedFile) := do
  let dependents ←
    findDependents host settings ref filename (SourceRecord.parse filename content).exports
  return dependents ++ (← findTests host settings ref filename)

end ReviewContext.Discovery
