import ReviewContext.Change.Summary
import ReviewContext.Excerpt
import ReviewContext.Report.Styled

/-! # The report for people

A block for each changed file: its status, name and strategy, how much content there is, its related
files, and why there is less than asked for. A line with the counts closes the report.
-/

namespace ReviewContext.Report

open Piece (plain)

def statusPiece : FileStatus → Piece
  | .added => ⟨[.bold, .green], ['A']⟩
  | .modified => ⟨[.bold, .yellow], ['M']⟩
  | .removed => ⟨[.bold, .red], ['D']⟩
  | .renamed => ⟨[.bold, .blue], ['R']⟩

def strategyPiece : Option Strategy → Piece
  | some .dependencyAware => ⟨[.green], "dependency_aware".toList⟩
  | some .fullFiles => ⟨[.cyan], "full_files".toList⟩
  | some .diffOnly => ⟨[.yellow], "diff_only".toList⟩
  | none => ⟨[.red], "unenriched".toList⟩

def contentPieces (content : String) : List Piece :=
  [plain "   ", ⟨[.dimmed], "content:".toList⟩,
    plain (" " ++ toString content.toList.length ++ " chars" ++
      (if Excerpt.isTruncated content.toList then " (truncated)" else "") ++ "\n")]

def relatedPieces (file : RelatedFile) : List Piece :=
  [plain "   ", ⟨[.cyan], ['→']⟩,
    plain (" " ++ file.filename ++ " (" ++ file.relationship.name ++ ")\n")]

def degradationPieces (reason : String) : List Piece :=
  [plain "   ", ⟨[.bold, .yellow], ['⚠']⟩, plain (" " ++ reason ++ "\n")]

def filePieces (file : ChangedFile) : List Piece :=
  [plain " ", statusPiece file.status, plain " ", ⟨[.bold], file.filename.toList⟩, plain " [",
    strategyPiece file.strategy, plain "]\n"] ++
  (file.fullContent.map contentPieces).getD [] ++
  ((file.dependencies.map Bundle.relatedFiles).getD []).flatMap relatedPieces ++
  (file.degradation.map degradationPieces).getD [] ++ [plain "\n"]

/-- A noun in the number that a count asks for. -/
def plural (count : Nat) (noun : String) : String :=
  if count = 1 then noun else noun ++ "s"

def countPiece (styles : List Style) (count : Nat) : Piece :=
  ⟨.bold :: styles, (toString count).toList⟩

def summaryPieces (summary : Summary) : List Piece :=
  [⟨[.dimmed], List.replicate 35 '─'⟩, plain "\n ", countPiece [] summary.files,
    plain " files: ", countPiece [] summary.withContent, plain " with content, ",
    countPiece [.green] summary.dependents,
    plain (" " ++ plural summary.dependents "dependent" ++ ", "),
    countPiece [.cyan] summary.tests, plain (" " ++ plural summary.tests "test" ++ ", "),
    countPiece [.yellow] summary.degraded, plain " degraded\n"]

def pieces (files : List ChangedFile) : List Piece :=
  if files.isEmpty then [⟨[.green], "  ✔ No changed files.\n".toList⟩]
  else files.flatMap filePieces ++ summaryPieces (Summary.ofFiles files)

/-- The report, with colours or without. -/
def terminal (colours : Bool) (files : List ChangedFile) : String :=
  String.ofList (write colours (pieces files))

end ReviewContext.Report
