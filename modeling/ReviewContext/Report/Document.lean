import ReviewContext.Change.Summary

/-! # The report for programs

An assembled change as one value of JSON: its files, and the counts over them.
-/

namespace ReviewContext.Report

def document (files : List ChangedFile) : Json :=
  .object [("files", .array (files.map ChangedFile.toJson)),
    ("summary", (Summary.ofFiles files).toJson)]

end ReviewContext.Report
