import ReviewContext.Language

/-! # Names of test files

A test is found by its name: the name of the file it tests with a conventional mark before the
extension. The same marks tell whether a file is a test itself.
-/

namespace ReviewContext.TestName

/-- Whether a path already names a test. -/
def looksLikeTest (path : String) : Bool :=
  let name := Text.lower (Path.fileName path).toList
  let base := (Path.baseName path).toList
  (Text.splitOn '/' path.toList).contains "__tests__".toList ||
    Text.occursIn ".test.".toList name || Text.occursIn ".spec.".toList name ||
    "test_".toList.isPrefixOf name ||
    Text.endsIn "_test".toList base || Text.endsIn "Test".toList base ||
    Text.endsIn "Tests".toList base || Text.endsIn "Spec".toList base

/-- The names a test of `target` may have, most common first. -/
def candidates (target : String) : List String :=
  let base := Path.baseName target
  let ext := Path.extension target
  [base ++ ".test" ++ ext, base ++ ".spec" ++ ext, base ++ "Test" ++ ext, base ++ "Tests" ++ ext,
    base ++ "_test" ++ ext] ++
    (if Language.ofPath target = .python then ["test_" ++ base ++ ext] else [])

end ReviewContext.TestName
