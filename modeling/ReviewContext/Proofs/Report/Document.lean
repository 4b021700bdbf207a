import Mathlib.Data.List.Basic
import ReviewContext.Proofs.Json.RoundTrip
import ReviewContext.Report.Document

/-! # The report for programs says what was assembled

A program that reads the report gets the very files it was made of, and their counts. Each record is read back
from what is written of it, and the text of the report is the text of a plain value.
-/

namespace ReviewContext

namespace Json

variable {α : Type} {read : Json → Option α} {write : α → Json}

/-- What is written of a value is read as that value. -/
def Lawful (read : Json → Option α) (write : α → Json) : Prop :=
  ∀ a, read (write a) = some a

private theorem lawful_string : Lawful string? string := fun _ => rfl

private theorem Lawful.list (lawful : Lawful read write) (items : List α) :
    list? read (array (items.map write)) = some items := by
  change (items.map write).mapM read = some items
  induction items with
  | nil => rfl
  | cons item items ih => simp [lawful item, ih]

/-- A value that may be missing is told from null. -/
theorem Lawful.optional (lawful : Lawful read write) (present : ∀ a, write a ≠ null) (value : Option α) :
    optional? read (value.map write) = some value := by
  cases value with
  | none => rfl
  | some a =>
    rw [Option.map_some, optional?]
    · rw [lawful a, Option.map_some]
    · exact fun same => present a same

private theorem count?_ofNat {n : Nat} (fits : n ≤ Text.maxWord) : count? (ofNat n) = some n := by
  have written : (toString n).toList = Nat.toDigits 10 n := by
    rw [Nat.toString_eq_ofList_toDigits, String.toList_ofList]
  have digits : (Nat.toDigits 10 n).all Char.isDigit := by
    rw [List.all_eq_true]
    exact fun c member => Nat.isDigit_of_mem_toDigits (by decide) (by decide) member
  rw [ofNat, count?, written, if_pos digits, Text.readNat?]
  · simp [digits, Nat.ofDigitChars_ten_toDigits, fits]
  · intro rest signed
    rw [signed] at digits
    exact absurd digits (by simp)

end Json

open Json (Lawful Plain)

/-! ## Records -/

private theorem Relationship.lawful : Lawful Relationship.ofJson? Relationship.toJson := by
  intro relationship
  cases relationship <;> rfl

private theorem Strategy.lawful : Lawful Strategy.ofJson? Strategy.toJson := by
  intro strategy
  cases strategy <;> rfl

private theorem FileStatus.lawful : Lawful FileStatus.ofJson? FileStatus.toJson := by
  intro status
  cases status <;> rfl

private theorem RelatedFile.lawful : Lawful RelatedFile.ofJson? RelatedFile.toJson := by
  intro file
  simp [ofJson?, toJson, Json.fields?, Json.member?, Field.required?, Json.string?, Relationship.lawful _]

private theorem Bundle.lawful : Lawful Bundle.ofJson? Bundle.toJson := by
  intro bundle
  simp [ofJson?, toJson, Json.fields?, Json.member?, Field.required?, RelatedFile.lawful.list]

namespace ChangedFile

/-- The members of a file; one that has to be there is one that is never missing. -/
def members (file : ChangedFile) : List (String × Json) :=
  member "context_strategy" Strategy.toJson file.strategy ++ member "degradation" Json.string file.degradation ++
    member "dependencies" Bundle.toJson file.dependencies ++ member "filename" Json.string (some file.filename) ++
    member "full_content" Json.string file.fullContent ++ member "patch" Json.string file.patch ++
    member "status" FileStatus.toJson (some file.status)

private theorem toJson_eq (file : ChangedFile) : file.toJson = .object file.members := rfl

private theorem filter_member {α : Type} (name sought : String) (write : α → Json) (value : Option α) :
    (member name write value).filter (·.1 == sought) = if name = sought then member name write value else [] := by
  cases value <;> by_cases same : name = sought <;> simp [member, same]

/-- Every member has a name of its own, so each is found, or found missing, by its name. -/
theorem fields?_toJson (file : ChangedFile) :
    file.toJson.fields? ["filename", "status", "patch", "full_content", "context_strategy", "dependencies",
      "degradation"] =
    some [some (.string file.filename), some file.status.toJson, file.patch.map .string,
      file.fullContent.map .string, file.strategy.map Strategy.toJson, file.dependencies.map Bundle.toJson,
      file.degradation.map .string] := by
  have found {α : Type} (name : String) (write : α → Json) (value : Option α)
      (alone : file.members.filter (·.1 == name) = member name write value) :
      Json.member? file.members name = some (value.map write) := by
    rw [Json.member?, alone]
    cases value <;> rfl
  have filename := found "filename" Json.string (some file.filename)
    (by simp [members, filter_member])
  have status := found "status" FileStatus.toJson (some file.status)
    (by simp [members, filter_member])
  have patch := found "patch" Json.string file.patch
    (by simp [members, filter_member])
  have content := found "full_content" Json.string file.fullContent
    (by simp [members, filter_member])
  have strategy := found "context_strategy" Strategy.toJson file.strategy
    (by simp [members, filter_member])
  have bundle := found "dependencies" Bundle.toJson file.dependencies
    (by simp [members, filter_member])
  have degradation := found "degradation" Json.string file.degradation
    (by simp [members, filter_member])
  simp [toJson_eq, Json.fields?, filename, status, patch, content, strategy, bundle, degradation]

private theorem lawful : Lawful ofJson? toJson := by
  intro file
  rw [ofJson?, fields?_toJson]
  simp [Field.required?, Json.string?, FileStatus.lawful _, Json.lawful_string.optional nofun,
    Strategy.lawful.optional nofun, Bundle.lawful.optional nofun]

end ChangedFile

namespace Summary

/-- Counts that fit a word each. -/
structure Fits (summary : Summary) : Prop where
  files : summary.files ≤ Text.maxWord
  withContent : summary.withContent ≤ Text.maxWord
  dependents : summary.dependents ≤ Text.maxWord
  tests : summary.tests ≤ Text.maxWord
  degraded : summary.degraded ≤ Text.maxWord

private theorem ofJson?_toJson {summary : Summary} (fits : summary.Fits) : ofJson? summary.toJson = some summary := by
  simp [ofJson?, toJson, Json.fields?, Json.member?, Field.required?, Json.count?_ofNat, fits.files,
    fits.withContent, fits.dependents, fits.tests, fits.degraded]

/-- No list in the memory of a machine of 64 bits has more entries than a word counts. -/
structure Countable (files : List ChangedFile) : Prop where
  length : files.length ≤ Text.maxWord
  related : (relatedFiles files).length ≤ Text.maxWord

private theorem Countable.fits {files : List ChangedFile} (countable : Countable files) : (ofFiles files).Fits where
  files := countable.length
  withContent := Nat.le_trans List.countP_le_length countable.length
  dependents := Nat.le_trans List.countP_le_length countable.related
  tests := Nat.le_trans List.countP_le_length countable.related
  degraded := Nat.le_trans List.countP_le_length countable.length

end Summary

/-! ## The text of a report -/

private theorem RelatedFile.plain (file : RelatedFile) : Plain file.toJson := by
  apply Plain.object
  simp only [List.mem_cons, List.not_mem_nil, or_false]
  rintro _ (rfl | rfl | rfl | rfl) <;> exact .string _

private theorem Bundle.plain (bundle : Bundle) : Plain bundle.toJson := by
  apply Plain.object
  simp only [List.mem_singleton]
  rintro _ rfl
  apply Plain.array
  rintro _ item
  obtain ⟨file, -, rfl⟩ := List.mem_map.mp item
  exact file.plain

private theorem ChangedFile.plain (file : ChangedFile) : Plain file.toJson := by
  have member_plain {α : Type} {name : String} {write : α → Json} {value : Option α}
      (each : ∀ a, Plain (write a)) : ∀ one ∈ member name write value, Plain one.2 := by
    cases value with
    | none => exact nofun
    | some a =>
      simp only [member, List.mem_singleton]
      rintro _ rfl
      exact each a
  rw [toJson_eq]
  apply Plain.object
  simp only [members, List.forall_mem_append]
  exact ⟨⟨⟨⟨⟨⟨member_plain fun _ => .string _, member_plain .string⟩, member_plain Bundle.plain⟩,
    member_plain .string⟩, member_plain .string⟩, member_plain .string⟩, member_plain fun _ => .string _⟩

private theorem Summary.plain (summary : Summary) : Plain summary.toJson := by
  apply Plain.object
  simp only [List.mem_cons, List.not_mem_nil, or_false]
  rintro _ (rfl | rfl | rfl | rfl | rfl) <;> exact .count _

namespace Report

private theorem document_plain (files : List ChangedFile) : Plain (document files) := by
  apply Plain.object
  simp only [List.mem_cons, List.not_mem_nil, or_false]
  rintro _ (rfl | rfl)
  · apply Plain.array
    rintro _ item
    obtain ⟨file, -, rfl⟩ := List.mem_map.mp item
    exact file.plain
  · exact Summary.plain _

/-- The text of a report is read as an object whose two members give back the files and the counts over them. -/
theorem document_read_back (files : List ChangedFile) :
    ∃ members, Json.parse? (document files).pretty = some (.object members) ∧
      (Json.member? members "files").bind (Field.required? (Json.list? ChangedFile.ofJson?)) = some files ∧
      (Summary.Countable files →
        (Json.member? members "summary").bind (Field.required? Summary.ofJson?) =
          some (Summary.ofFiles files)) := by
  refine ⟨_, Json.parse?_pretty (document_plain files), ?_, ?_⟩
  · simp [Json.member?, Field.required?, ChangedFile.lawful.list]
  · intro countable
    simp [Json.member?, Field.required?, Summary.ofJson?_toJson countable.fits]

/-- A file whose texts hold what has to be escaped, with a bundle. -/
def quotedFile : ChangedFile where
  filename := "src/\"a\".ts"
  status := .renamed
  patch := some "@@ -1 +1 @@\n-\\\x07\n+\té\r\n"
  strategy := some .dependencyAware
  dependencies := some ⟨[⟨"src/b.ts", .dependent, "", "src/\"a\".ts"⟩, ⟨"a.test.ts", .test, "\\u0041", "a"⟩]⟩

/-- Quotes, backslashes, control characters and what looks like an escape come back as they were. -/
theorem document_read_back_of_escapes : Summary.Countable [quotedFile] ∧
    ∃ members, Json.parse? (document [quotedFile]).pretty = some (.object members) ∧
      (Json.member? members "files").bind (Field.required? (Json.list? ChangedFile.ofJson?)) =
        some [quotedFile] ∧
      (Json.member? members "summary").bind (Field.required? Summary.ofJson?) = some ⟨1, 0, 1, 1, 0⟩ := by
  have countable : Summary.Countable [quotedFile] := ⟨by decide, by decide⟩
  obtain ⟨members, text, files, counts⟩ := document_read_back [quotedFile]
  exact ⟨countable, members, text, files, counts countable⟩

end Report

end ReviewContext
