import ReviewContext.Json.Fields

/-! # Related files

A file that belongs to the context of a changed file, why it does, and the bundle of them that a changed
file carries. Members of a record are written in the order of their names.
-/

namespace ReviewContext

inductive Relationship where
  /-- Imports the changed file. -/
  | dependent
  /-- Tests the changed file. -/
  | test
  deriving DecidableEq

namespace Relationship

def name : Relationship → String
  | dependent => "dependent"
  | test => "test"

def ofName? (s : String) : Option Relationship :=
  [dependent, test].find? (·.name == s)

def toJson (relationship : Relationship) : Json :=
  .string relationship.name

def ofJson? (value : Json) : Option Relationship :=
  value.caseName? >>= ofName?

end Relationship

structure RelatedFile where
  filename : String
  relationship : Relationship
  content : String
  /-- The changed file whose search found this one. -/
  target : String
  deriving DecidableEq

namespace RelatedFile

def toJson (file : RelatedFile) : Json :=
  .object [("content", .string file.content), ("filename", .string file.filename),
    ("relationship", file.relationship.toJson), ("target", .string file.target)]

def ofJson? (value : Json) : Option RelatedFile := do
  match ← value.fields? ["filename", "relationship", "content", "target"] with
  | [filename, relationship, content, target] =>
    return ⟨← Field.required? Json.string? filename,
      ← Field.required? Relationship.ofJson? relationship,
      ← Field.required? Json.string? content, ← Field.required? Json.string? target⟩
  | _ => none

end RelatedFile

/-- The related files that a changed file carries. -/
structure Bundle where
  relatedFiles : List RelatedFile
  deriving DecidableEq

namespace Bundle

def ofRelationship (relationship : Relationship) (bundle : Bundle) : List RelatedFile :=
  bundle.relatedFiles.filter (·.relationship = relationship)

def dependents (bundle : Bundle) : List RelatedFile :=
  bundle.ofRelationship .dependent

def tests (bundle : Bundle) : List RelatedFile :=
  bundle.ofRelationship .test

def isEmpty (bundle : Bundle) : Bool :=
  bundle.relatedFiles.isEmpty

def toJson (bundle : Bundle) : Json :=
  .object [("related_files", .array (bundle.relatedFiles.map RelatedFile.toJson))]

def ofJson? (value : Json) : Option Bundle := do
  match ← value.fields? ["related_files"] with
  | [files] => return ⟨← Field.required? (Json.list? RelatedFile.ofJson?) files⟩
  | _ => none

end Bundle

end ReviewContext
