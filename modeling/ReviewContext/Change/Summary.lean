import ReviewContext.Change.ChangedFile

/-! # Counts over an assembled change
-/

namespace ReviewContext

structure Summary where
  files : Nat
  withContent : Nat
  dependents : Nat
  tests : Nat
  degraded : Nat
  deriving DecidableEq

namespace Summary

/-- The related files of all changed files, one after the other. -/
def relatedFiles (files : List ChangedFile) : List RelatedFile :=
  files.flatMap fun file => (file.dependencies.map Bundle.relatedFiles).getD []

def ofFiles (files : List ChangedFile) : Summary where
  files := files.length
  withContent := files.countP (·.fullContent.isSome)
  dependents := (relatedFiles files).countP (·.relationship = .dependent)
  tests := (relatedFiles files).countP (·.relationship = .test)
  degraded := files.countP (·.degradation.isSome)

def toJson (summary : Summary) : Json :=
  .object [("degraded", .ofNat summary.degraded), ("dependents", .ofNat summary.dependents),
    ("files", .ofNat summary.files), ("tests", .ofNat summary.tests),
    ("with_content", .ofNat summary.withContent)]

def ofJson? (value : Json) : Option Summary := do
  match ← value.fields? ["files", "with_content", "dependents", "tests", "degraded"] with
  | [files, withContent, dependents, tests, degraded] =>
    return ⟨← Field.required? Json.count? files, ← Field.required? Json.count? withContent,
      ← Field.required? Json.count? dependents, ← Field.required? Json.count? tests,
      ← Field.required? Json.count? degraded⟩
  | _ => none

end Summary

end ReviewContext
