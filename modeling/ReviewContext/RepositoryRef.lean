import ReviewContext.Json.Fields

/-! # The repository under review

Which repository, and at which revision, every fetch and search of a run is about. The revision is the
head of the change, so that what is fetched fits the code under review.
-/

namespace ReviewContext

structure RepositoryRef where
  owner : String
  repo : String
  headRevision : String
  deriving DecidableEq

namespace RepositoryRef

def slug (ref : RepositoryRef) : String :=
  ref.owner ++ "/" ++ ref.repo

def display (ref : RepositoryRef) : String :=
  ref.slug ++ "@" ++ ref.headRevision

def toJson (ref : RepositoryRef) : Json :=
  .object [("head_revision", .string ref.headRevision), ("owner", .string ref.owner),
    ("repo", .string ref.repo)]

def ofJson? (value : Json) : Option RepositoryRef := do
  match ← value.fields? ["owner", "repo", "head_revision"] with
  | [owner, repo, headRevision] =>
    return ⟨← Field.required? Json.string? owner, ← Field.required? Json.string? repo,
      ← Field.required? Json.string? headRevision⟩
  | _ => none

end RepositoryRef

end ReviewContext
