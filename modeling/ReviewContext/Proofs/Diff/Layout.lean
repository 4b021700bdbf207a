import Mathlib.Data.List.Basic
import ReviewContext.Diff
import ReviewContext.Proofs.Text.Rows

/-! # The layout of a diff

A diff that tells of a row of changes has a section for each: a header with both names, lines that say what happened
to the file, and hunks, or a notice that it is binary, or nothing. Reading the text of such a diff finds its lines
again, and in the lines the sections that were written.
-/

namespace ReviewContext

namespace Text

/-- Whether a text takes one line: it holds no newline and does not end in a carriage return. -/
def IsLine (text : List Char) : Prop :=
  '\n' ∉ text ∧ text.getLast? ≠ some '\r'

instance (text : List Char) : Decidable (IsLine text) :=
  inferInstanceAs (Decidable (_ ∧ _))

private theorem IsLine.append {text more : List Char} (line : IsLine text) (other : IsLine more) :
    IsLine (text ++ more) := by
  constructor
  · rw [List.mem_append]
    exact not_or.mpr ⟨line.1, other.1⟩
  · rw [List.getLast?_append]
    have ends := other.2
    cases last : more.getLast? with
    | none => exact line.2
    | some c =>
      rw [last] at ends
      exact ends

private theorem splitOn_ended {rows : List (List Char)} (inLine : ∀ row ∈ rows, '\n' ∉ row) :
    splitOn '\n' (rows.flatMap (· ++ ['\n'])) = rows ++ [[]] := by
  induction rows with
  | nil => rfl
  | cons row rows ih =>
    have tail := ih fun other member => inLine other (List.mem_cons_of_mem row member)
    rw [List.flatMap_cons, List.append_assoc, List.singleton_append, splitOn_append (inLine row List.mem_cons_self), tail]
    rfl

/-- Reading a text finds the lines it was put together from. -/
theorem lines_ended {rows : List (List Char)} (inLine : ∀ row ∈ rows, IsLine row) :
    lines (rows.flatMap (· ++ ['\n'])) = rows := by
  have kept : rows.map withoutReturn = rows := by
    have each : ∀ row ∈ rows, withoutReturn row = id row := fun row member => if_neg (inLine row member).2
    rw [List.map_congr_left each, List.map_id]
  unfold lines
  rw [splitOn_ended fun row member => (inLine row member).1]
  simp only [List.dropLast_concat, List.getLast?_concat, Option.getD_some, List.isEmpty_nil, ↓reduceIte,
    List.append_nil]
  exact kept

end Text

namespace Diff

open Text

/-! ## What a diff tells -/

/-- A text that takes one line. -/
structure Line where
  text : List Char
  isLine : IsLine text

/-- A path as git writes it without quotes around it. -/
structure Name where
  text : List Char
  nonempty : text ≠ []
  inLine : '\n' ∉ text
  noReturn : '\r' ∉ text

/-- What a line may tell in front of the hunks apart from what happened to the file. -/
inductive NoteKind where
  | oldMode
  | newMode
  | similarity
  | dissimilarity
  | index
  | oldName
  | newName

def NoteKind.mark : NoteKind → String
  | oldMode => "old mode "
  | newMode => "new mode "
  | similarity => "similarity index "
  | dissimilarity => "dissimilarity index "
  | index => "index "
  | oldName => "--- "
  | newName => "+++ "

structure Note where
  kind : NoteKind
  rest : Line

def Note.row (note : Note) : List Char :=
  note.kind.mark.toList ++ note.rest.text

/-- What happened to a file; its mode is told of one that comes or goes. -/
inductive Event where
  | modified
  | added (mode : Line)
  | removed (mode : Line)
  | renamed (new : Name)

namespace Event

/-- The status that a record has for what happened. -/
def status : Event → FileStatus
  | modified => .modified
  | added _ => .added
  | removed _ => .removed
  | renamed _ => .renamed

def rows (old : Name) : Event → List (List Char)
  | modified => []
  | added mode => ["new file mode ".toList ++ mode.text]
  | removed mode => ["deleted file mode ".toList ++ mode.text]
  | renamed new => ["rename from ".toList ++ old.text, "rename to ".toList ++ new.text]

/-- A file that is gone is called by its old name, every other by its new one. -/
def choose (event : Event) (names : List Char × List Char) : List Char :=
  match event with
  | removed _ => names.1
  | _ => names.2

end Event

/-- What stands in front of a line of a hunk. -/
inductive HunkSign where
  | context
  | added
  | removed
  /-- Of a line that is no line of the file. -/
  | remark

def HunkSign.char : HunkSign → Char
  | context => ' '
  | added => '+'
  | removed => '-'
  | remark => '\\'

/-- A hunk, line by line. -/
structure Hunk where
  /-- What stands behind the two signs that start a hunk. -/
  place : Line
  body : List (HunkSign × Line)

def Hunk.rows (hunk : Hunk) : List (List Char) :=
  ('@' :: '@' :: hunk.place.text) :: hunk.body.map fun (sign, line) => sign.char :: line.text

/-- What the diff shows of the content of a file. -/
inductive Content where
  | nothing
  | binary (rest : Line)
  | hunks (first : Hunk) (more : List Hunk)

namespace Content

def notice : Content → List (List Char)
  | binary rest => ["Binary files".toList ++ rest.text]
  | _ => []

def rows : Content → List (List Char)
  | hunks first more => (first :: more).flatMap Hunk.rows
  | _ => []

/-- The rows of the hunks, joined by newlines and ended by one. -/
def patch? : Content → Option (List Char)
  | hunks first more => some (['\n'].intercalate ((first :: more).flatMap Hunk.rows) ++ ['\n'])
  | _ => none

end Content

/-- One file of a diff: its path, what happened to it and what the diff shows of it. -/
structure Change where
  old : Name
  event : Event
  /-- The notes in front of what happened, and those behind it. -/
  before : List Note
  after : List Note
  content : Content

namespace Change

/-- The path of the file after the change. -/
def new (change : Change) : Name :=
  match change.event with
  | .renamed new => new
  | _ => change.old

/-- The two names in the header of a section, with the marks of their sides. -/
def names (change : Change) : List Char :=
  "a/".toList ++ change.old.text ++ " b/".toList ++ change.new.text

/-- The rows of a section between its header and its hunks. -/
def heads (change : Change) : List (List Char) :=
  change.before.map Note.row ++ change.event.rows change.old ++ change.after.map Note.row ++ change.content.notice

/-- The section of a change, as it is cut out of a diff. -/
def part (change : Change) : FileSection :=
  ⟨change.names, change.heads ++ change.content.rows⟩

/-- The lines of a section. -/
def rows (change : Change) : List (List Char) :=
  (sectionMark ++ change.names) :: (change.heads ++ change.content.rows)

/-- The record of a change. -/
def file (change : Change) : ChangedFile where
  filename := String.ofList (change.event.choose (change.old.text, change.new.text))
  status := change.event.status
  patch := change.content.patch?.map String.ofList

end Change

/-- The text of a diff that tells of these changes. -/
def written (changes : List Change) : List Char :=
  (changes.flatMap Change.rows).flatMap (· ++ ['\n'])

/-! ## The rows of a section -/

/-- A row in front of the hunks that tells this of what happened to the file, and of its content this. -/
structure Tells (row : List Char) (status? : Option FileStatus) (binary : Bool) : Prop where
  isLine : IsLine row
  within : sectionMark.isPrefixOf? row = none
  hunk : startsHunk row = false
  status : statusOf? row = status?
  binary : saysBinary row = binary

private theorem Name.isLine (name : Name) : IsLine name.text :=
  ⟨name.inLine, fun last => name.noReturn (List.mem_of_getLast? last)⟩

theorem Note.tells (note : Note) : Tells note.row none false := by
  obtain ⟨kind, rest⟩ := note
  have isLine : IsLine kind.mark.toList := by cases kind <;> decide
  have within : sectionMark.isPrefixOf? (kind.mark.toList ++ rest.text) = none := by cases kind <;> rfl
  have hunk : startsHunk (kind.mark.toList ++ rest.text) = false := by cases kind <;> rfl
  have status : statusOf? (kind.mark.toList ++ rest.text) = none := by cases kind <;> rfl
  have binary : saysBinary (kind.mark.toList ++ rest.text) = false := by cases kind <;> rfl
  exact ⟨isLine.append rest.isLine, within, hunk, status, binary⟩

/-- Every row about what happened tells just that. -/
theorem Event.tells (old : Name) (event : Event) :
    ∀ row ∈ event.rows old, Tells row (some event.status) false := by
  have line {lead : List Char} (isLine : IsLine lead) (rest : Line) : IsLine (lead ++ rest.text) :=
    isLine.append rest.isLine
  have name {lead : List Char} (isLine : IsLine lead) (rest : Name) : IsLine (lead ++ rest.text) :=
    isLine.append rest.isLine
  intro row member
  cases event with
  | modified => cases member
  | added mode =>
    obtain rfl := List.mem_singleton.mp member
    exact ⟨line (by decide) mode, rfl, rfl, rfl, rfl⟩
  | removed mode =>
    obtain rfl := List.mem_singleton.mp member
    exact ⟨line (by decide) mode, rfl, rfl, rfl, rfl⟩
  | renamed new =>
    rcases List.mem_cons.mp member with rfl | member
    · exact ⟨name (by decide) old, rfl, rfl, rfl, rfl⟩
    · obtain rfl := List.mem_singleton.mp member
      exact ⟨name (by decide) new, rfl, rfl, rfl, rfl⟩

theorem Content.tells (content : Content) : ∀ row ∈ content.notice, Tells row none true := by
  intro row member
  cases content with
  | nothing => cases member
  | hunks first more => cases member
  | binary rest =>
    obtain rfl := List.mem_singleton.mp member
    have isLine : IsLine "Binary files".toList := by decide
    exact ⟨isLine.append rest.isLine, rfl, rfl, rfl, rfl⟩

private theorem Hunk.isLine (hunk : Hunk) : ∀ row ∈ hunk.rows, IsLine row ∧ sectionMark.isPrefixOf? row = none := by
  intro row member
  rcases List.mem_cons.mp member with rfl | member
  · have isLine : IsLine ['@', '@'] := by decide
    exact ⟨isLine.append hunk.place.isLine, rfl⟩
  · obtain ⟨⟨sign, line⟩, -, rfl⟩ := List.mem_map.mp member
    have isLine : IsLine [sign.char] := by cases sign <;> decide
    have within : sectionMark.isPrefixOf? (sign.char :: line.text) = none := by cases sign <;> rfl
    exact ⟨isLine.append line.isLine, within⟩

namespace Change

variable (change : Change)

/-- No row in front of the hunks is one that starts a section or a hunk. -/
theorem heads_tell : ∀ row ∈ change.heads, ∃ status? binary, Tells row status? binary := by
  intro row member
  simp only [heads, List.mem_append] at member
  rcases member with ((inBefore | inEvent) | inAfter) | inNotice
  · obtain ⟨note, -, rfl⟩ := List.mem_map.mp inBefore
    exact ⟨_, _, note.tells⟩
  · exact ⟨_, _, change.event.tells change.old row inEvent⟩
  · obtain ⟨note, -, rfl⟩ := List.mem_map.mp inAfter
    exact ⟨_, _, note.tells⟩
  · exact ⟨_, _, change.content.tells row inNotice⟩

/-- Every row of a section but its header is a line that starts no section. -/
theorem body_isLine : ∀ row ∈ change.part.body, IsLine row ∧ sectionMark.isPrefixOf? row = none := by
  intro row member
  rcases List.mem_append.mp member with inHeads | inHunks
  · obtain ⟨_, _, tells⟩ := change.heads_tell row inHeads
    exact ⟨tells.isLine, tells.within⟩
  · cases content : change.content with
    | nothing => simp [content, Content.rows] at inHunks
    | binary rest => simp [content, Content.rows] at inHunks
    | hunks first more =>
      rw [content] at inHunks
      obtain ⟨hunk, -, inHunk⟩ := List.mem_flatMap.mp inHunks
      exact hunk.isLine row inHunk

private theorem names_isLine : IsLine (sectionMark ++ change.names) := by
  have mark : IsLine sectionMark := by decide
  have side : IsLine "a/".toList := by decide
  have other : IsLine " b/".toList := by decide
  exact mark.append (((side.append change.old.isLine).append other).append change.new.isLine)

private theorem rows_isLine : ∀ row ∈ change.rows, IsLine row := by
  intro row member
  rcases List.mem_cons.mp member with rfl | inBody
  · exact change.names_isLine
  · exact (change.body_isLine row inBody).1

end Change

/-! ## Sections -/

theorem sections_cons (line : List Char) (lines : List (List Char)) : sections (line :: lines) =
    match sectionMark.isPrefixOf? line with
    | some header => ([], ⟨header, (sections lines).1⟩ :: (sections lines).2)
    | none => (line :: (sections lines).1, (sections lines).2) :=
  rfl

/-- Rows that start no section belong to the section in front of them. -/
theorem sections_body {rows : List (List Char)} (within : ∀ row ∈ rows, sectionMark.isPrefixOf? row = none)
    (lines : List (List Char)) : sections (rows ++ lines) = (rows ++ (sections lines).1, (sections lines).2) := by
  induction rows with
  | nil => rfl
  | cons row rows ih =>
    have tail := ih fun other member => within other (List.mem_cons_of_mem row member)
    rw [List.cons_append, sections_cons, within row List.mem_cons_self, tail]
    rfl

/-- The sections of the rows of some changes are theirs, and nothing stands in front of the first. -/
theorem sections_rows (changes : List Change) :
    sections (changes.flatMap Change.rows) = ([], changes.map Change.part) := by
  induction changes with
  | nil => rfl
  | cons change changes ih =>
    have header : sectionMark.isPrefixOf? (sectionMark ++ change.names) = some change.names :=
      List.isPrefixOf?_eq_some_iff_append_eq.mpr rfl
    have body : sections (change.part.body ++ changes.flatMap Change.rows) =
        (change.part.body, changes.map Change.part) := by
      rw [sections_body fun row member => (change.body_isLine row member).2, ih, List.append_nil]
    rw [List.flatMap_cons, Change.rows, List.cons_append, sections_cons, header]
    change ([], FileSection.mk _ (sections (change.part.body ++ _)).1 :: (sections (change.part.body ++ _)).2) = _
    rw [body]
    rfl

/-- Reading what is written of some changes finds a section for each. -/
theorem parse_written (changes : List Change) :
    parse (String.ofList (written changes)) = changes.map fun change => change.part.toChangedFile := by
  have inLine : ∀ row ∈ changes.flatMap Change.rows, IsLine row := by
    intro row member
    obtain ⟨change, -, inRows⟩ := List.mem_flatMap.mp member
    exact change.rows_isLine row inRows
  rw [parse, String.toList_ofList, written, lines_ended inLine, sections_rows, List.map_map]
  rfl

end Diff

end ReviewContext
