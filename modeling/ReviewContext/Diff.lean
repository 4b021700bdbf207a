import ReviewContext.Change.ChangedFile
import ReviewContext.Text.Basic

/-! # Unified diffs

A diff is a row of sections, one for each file, and each starts with a line of its own. Of a section the
lines before the first hunk tell what happened to the file; from there on every line is the patch. What
stands before the first section is no part of any.
-/

namespace ReviewContext.Diff

def sectionMark : List Char := "diff --git ".toList

/-- The lines of one file: what follows the mark in the first line, and the other lines. -/
structure FileSection where
  header : List Char
  body : List (List Char)
  deriving DecidableEq

/-- The sections of a diff, and the lines before the first. -/
def sections (lines : List (List Char)) : List (List Char) × List FileSection :=
  lines.foldr
    (fun line (body, found) =>
      match List.isPrefixOf? sectionMark line with
      | some header => ([], ⟨header, body⟩ :: found)
      | none => (line :: body, found))
    ([], [])

/-- The letters that stand before the slash in front of the two paths of a header. -/
def isSideMark (c : Char) : Bool :=
  ['a', 'b', 'c', 'w', 'i', 'o'].contains c

/-- Whether a path with the mark of its side stands at the head. -/
def startsSide : List Char → Bool
  | c :: '/' :: _ => isSideMark c
  | _ => false

/-- A path without the mark of its side. -/
def withoutSide (path : List Char) : List Char :=
  if startsSide path then path.drop 2 else path

/-- Cuts at the first space that a mark follows. -/
def cutAtSide? : List Char → Option (List Char × List Char)
  | [] => none
  | c :: cs =>
    if c = ' ' && startsSide cs then some ([], cs)
    else (cutAtSide? cs).map fun (old, new) => (c :: old, new)

/-- The two paths of a header, with their marks. The second starts at the first mark after a space, not
counting the first character; without one, the first space parts them. -/
def cutHeader (header : List Char) : List Char × List Char :=
  let atSide? : Option (List Char × List Char) := match header with
    | [] => none
    | c :: cs => (cutAtSide? cs).map fun (old, new) => (c :: old, new)
  atSide?.getD (header.takeWhile (· != ' '), (header.dropWhile (· != ' ')).drop 1)

/-- The old path and the new path of a header. -/
def paths (header : List Char) : List Char × List Char :=
  let (old, new) := cutHeader header
  (withoutSide old, withoutSide new)

def startsHunk (line : List Char) : Bool :=
  ['@', '@'].isPrefixOf line

/-- What a line before the first hunk says about the file, if it does. -/
def statusOf? (line : List Char) : Option FileStatus :=
  if "new file mode".toList.isPrefixOf line then some .added
  else if "deleted file mode".toList.isPrefixOf line then some .removed
  else if "rename from".toList.isPrefixOf line || "rename to".toList.isPrefixOf line then
    some .renamed
  else none

def saysBinary (line : List Char) : Bool :=
  "Binary files".toList.isPrefixOf line || "GIT binary patch".toList.isPrefixOf line

namespace FileSection

/-- The lines before the first hunk. -/
def headers (part : FileSection) : List (List Char) :=
  part.body.takeWhile (!startsHunk ·)

/-- The lines from the first hunk on. -/
def hunks (part : FileSection) : List (List Char) :=
  part.body.dropWhile (!startsHunk ·)

/-- The last line that says what happened decides; a file of which none does is modified. -/
def status (part : FileSection) : FileStatus :=
  ((part.headers.filterMap statusOf?).getLast?).getD .modified

/-- The hunks with every line ended; a binary file has none to show. -/
def patch? (part : FileSection) : Option (List Char) :=
  if part.hunks.isEmpty || part.headers.any saysBinary then none
  else some (part.hunks.flatMap (· ++ ['\n']))

def toChangedFile (part : FileSection) : ChangedFile :=
  let (old, new) := paths part.header
  { filename := String.ofList (if part.status = .removed then old else new)
    status := part.status
    patch := part.patch?.map String.ofList }

end FileSection

/-- The files that a diff changes, in its order. -/
def parse (text : String) : List ChangedFile :=
  (sections (Text.lines text.toList)).2.map FileSection.toChangedFile

end ReviewContext.Diff
