import Mathlib.Data.List.Infix
import Mathlib.Data.List.Forall2
import ReviewContext.Proofs.Diff.Sections

/-! # Patches are the text of hunks

The patch of a file is the text of its section from the first hunk on, with its last line ended and without the
carriage returns that stand in front of newlines. So it is that text as it stands exactly if no such carriage return
is in it.
-/

namespace ReviewContext

namespace Text

variable {cs row : List Char} {first second : List (List Char)}

/-! ## Rows one after the other -/

/-- Whether these are the rows of one text. -/
def AreRows (found : List (List Char)) : Prop :=
  rows found.flatten = found

private theorem areRows_rows (cs : List Char) : AreRows (rows cs) :=
  congrArg rows (flatten_rows cs)

private theorem areRows_cons (inRow : '\n' ∉ row) (tail : AreRows first) : AreRows ((row ++ ['\n']) :: first) := by
  rw [AreRows, List.flatten_cons, List.append_assoc, List.singleton_append, rows_ended inRow, tail]

private theorem endsLine_append {front : List Char} (ends : EndsLine cs) : EndsLine (front ++ '\n' :: cs) := by
  right
  rcases ends with rfl | last
  · exact List.getLast?_concat
  · rw [List.getLast?_append, List.getLast?_cons, last]
    rfl

/-- The rows of a text fall into those of two texts wherever they are parted, and the first text ends its last line if
a row is left for the second. -/
theorem rows_parted (parted : rows cs = first ++ second) :
    AreRows first ∧ AreRows second ∧ (second ≠ [] → EndsLine first.flatten) := by
  induction cs using row_induction generalizing first with
  | last row inRow =>
    have whole := areRows_rows row
    rw [parted] at whole
    cases first with
    | nil => exact ⟨rfl, whole, fun _ => .inl rfl⟩
    | cons line first =>
      have alone : first = [] ∧ second = [] := by
        cases row with
        | nil => cases parted
        | cons c row =>
          rw [rows_open inRow (List.cons_ne_nil c row), List.cons_append, List.cons.injEq] at parted
          exact List.nil_eq_append_iff.mp parted.2
      obtain ⟨rfl, rfl⟩ := alone
      exact ⟨whole, rfl, fun some => absurd rfl some⟩
  | ended row cs inRow ih =>
    have whole := areRows_rows (row ++ '\n' :: cs)
    rw [parted] at whole
    cases first with
    | nil => exact ⟨rfl, whole, fun _ => .inl rfl⟩
    | cons line first =>
      rw [rows_ended inRow, List.cons_append] at parted
      obtain ⟨rfl, later⟩ := List.cons.inj parted
      obtain ⟨front, back, ends⟩ := ih later
      refine ⟨areRows_cons inRow front, back, fun some => ?_⟩
      rw [List.flatten_cons, List.append_assoc, List.singleton_append]
      exact endsLine_append (ends some)

/-! ## Carriage returns in front of newlines -/

/-- A text without the carriage returns in front of newlines, one for each newline. -/
def withoutReturns : List Char → List Char
  | '\r' :: '\n' :: cs => '\n' :: withoutReturns cs
  | c :: cs => c :: withoutReturns cs
  | [] => []

/-- A text with its last line ended. -/
def closed (cs : List Char) : List Char :=
  if EndsLine cs then cs else cs ++ ['\n']

private theorem withoutReturns_cons {c d : Char} (solid : d ≠ '\n') (cs : List Char) :
    withoutReturns (c :: d :: cs) = c :: withoutReturns (d :: cs) := by
  rw [withoutReturns]
  intro _ _ same
  exact solid (List.cons.inj same).1

private theorem withoutReturns_ended (inRow : '\n' ∉ row) (cs : List Char) :
    withoutReturns (row ++ '\n' :: cs) = withoutReturn row ++ '\n' :: withoutReturns cs := by
  induction row with
  | nil => rfl
  | cons c row ih =>
    obtain ⟨-, inRow⟩ := not_or.mp (mt List.mem_cons.mpr inRow)
    cases row with
    | nil =>
      by_cases ret : c = '\r'
      · subst ret
        rfl
      · have kept : withoutReturn [c] = [c] := if_neg (by simpa using ret)
        rw [kept, List.singleton_append, withoutReturns]
        · rfl
        · exact fun _ same _ => ret same
    | cons d row =>
      have solid : d ≠ '\n' := fun same => inRow (same ▸ List.mem_cons_self)
      have inner : withoutReturn (c :: d :: row) = c :: withoutReturn (d :: row) := by
        unfold withoutReturn
        rw [List.getLast?_cons_cons]
        split <;> rfl
      rw [List.cons_append, List.cons_append, withoutReturns_cons solid, inner, ← List.cons_append, ih inRow,
        List.cons_append]

private theorem withoutReturns_eq_self (absent : ¬ ['\r', '\n'] <:+: cs) : withoutReturns cs = cs := by
  fun_induction withoutReturns cs with
  | case1 cs ih => exact absurd (List.prefix_append ['\r', '\n'] cs).isInfix absent
  | case2 c cs other ih => rw [ih fun inside => absent (List.infix_cons inside)]
  | case3 => rfl

private theorem withoutReturns_sublist (cs : List Char) : (withoutReturns cs).Sublist cs := by
  fun_induction withoutReturns cs with
  | case1 cs ih => exact (ih.cons_cons '\n').cons '\r'
  | case2 c cs other ih => exact ih.cons_cons c
  | case3 => exact .slnil

private theorem count_withoutReturns (inside : ['\r', '\n'] <:+: cs) :
    (withoutReturns cs).count '\r' < cs.count '\r' := by
  fun_induction withoutReturns cs with
  | case1 cs ih =>
    have fewer := (withoutReturns_sublist cs).count_le '\r'
    rw [List.count_cons_of_ne (by decide), List.count_cons_self, List.count_cons_of_ne (by decide)]
    omega
  | case2 c cs other ih =>
    rcases List.infix_cons_iff.mp inside with here | later
    · obtain ⟨rfl, rest, rfl⟩ := List.cons_prefix_cons.mp here
      exact absurd rfl (other rest rfl)
    · have fewer := ih later
      rw [List.count_cons, List.count_cons]
      omega
  | case3 => simp at inside

private theorem closed_open (inRow : '\n' ∉ row) (some : row ≠ []) : closed row = row ++ ['\n'] :=
  if_neg fun ends => some (ends.eq_nil inRow)

private theorem closed_append (front cs : List Char) : closed (front ++ '\n' :: cs) = front ++ '\n' :: closed cs := by
  unfold closed
  by_cases ends : EndsLine cs
  · rw [if_pos ends, if_pos (endsLine_append ends)]
  · rw [if_neg ends, if_neg fun whole => ends whole.behind, List.append_assoc, List.cons_append]

private theorem count_closed (cs : List Char) : (closed cs).count '\r' = cs.count '\r' := by
  unfold closed
  split
  · rfl
  · rw [List.count_append, List.count_singleton, if_neg (by decide), Nat.add_zero]

/-- Only a carriage return in front of a newline makes a difference. -/
theorem closed_withoutReturns_iff (cs : List Char) :
    closed (withoutReturns cs) = closed cs ↔ ¬ ['\r', '\n'] <:+: cs := by
  constructor
  · intro same inside
    have fewer := count_withoutReturns inside
    rw [← count_closed, same, count_closed] at fewer
    exact Nat.lt_irrefl _ fewer
  · intro absent
    rw [withoutReturns_eq_self absent]

/-- The lines of a text, each ended by a newline. -/
theorem flatMap_rows (cs : List Char) :
    (rows cs).flatMap (fun row => withoutEnd row ++ ['\n']) = closed (withoutReturns cs) := by
  induction cs using row_induction with
  | last row inRow =>
    cases row with
    | nil => rfl
    | cons c row =>
      have some := List.cons_ne_nil c row
      have absent : ¬ ['\r', '\n'] <:+: c :: row := fun inside => inRow (inside.subset (by simp))
      rw [rows_open inRow some, withoutReturns_eq_self absent, closed_open inRow some, List.flatMap_singleton,
        withoutEnd_open inRow]
  | ended row cs inRow ih =>
    rw [rows_ended inRow, withoutReturns_ended inRow, closed_append, List.flatMap_cons, ih, withoutEnd_ended,
      List.append_assoc, List.singleton_append]

end Text

namespace Diff

open Text

/-! ## Sections in the text -/

/-- The rows of a diff by sections: those before the first, and for each section its first row and the other rows. -/
def sectionRows (found : List (List Char)) : List (List Char) × List (List Char × List (List Char)) :=
  found.foldr
    (fun row (body, parts) => if startsSection row then ([], (row, body) :: parts) else (row :: body, parts))
    ([], [])

/-- A diff cut in front of each row that starts a section: what stands before the first, and the sections. -/
def sectionTexts (text : List Char) : List Char × List (List Char) :=
  let (front, parts) := sectionRows (rows text)
  (front.flatten, parts.map fun (row, body) => row ++ body.flatten)

/-- The text of a section before its first hunk. -/
def headText (part : List Char) : List Char :=
  ((rows part).takeWhile (!startsHunk ·)).flatten

/-- The text of a section from its first hunk on. -/
def hunkText (part : List Char) : List Char :=
  ((rows part).dropWhile (!startsHunk ·)).flatten

private theorem sectionRows_cons (row : List Char) (found : List (List Char)) : sectionRows (row :: found) =
    if startsSection row then ([], (row, (sectionRows found).1) :: (sectionRows found).2)
    else (row :: (sectionRows found).1, (sectionRows found).2) :=
  rfl

private theorem flatten_sectionRows (found : List (List Char)) :
    (sectionRows found).1 ++ (sectionRows found).2.flatMap (fun (row, body) => row :: body) = found := by
  induction found with
  | nil => rfl
  | cons row found ih =>
    rw [sectionRows_cons]
    split
    · exact congrArg (row :: ·) ih
    · exact congrArg (row :: ·) ih

/-- The sections one after the other, behind what stands before the first, are the diff. -/
theorem flatten_sectionTexts (text : List Char) :
    (sectionTexts text).1 ++ (sectionTexts text).2.flatten = text := by
  have whole := congrArg List.flatten (flatten_sectionRows (rows text))
  rw [flatten_rows, List.flatten_append, List.flatMap, List.flatten_flatten, List.map_map] at whole
  exact whole

private theorem headText_append_hunkText (part : List Char) : headText part ++ hunkText part = part := by
  rw [headText, hunkText, ← List.flatten_append, List.takeWhile_append_dropWhile, flatten_rows]

/-- What is read as a section is the lines of its rows. -/
structure ReadFrom (part : List Char × List (List Char)) (found : FileSection) : Prop where
  rows : AreRows (part.1 :: part.2)
  starts : startsSection part.1 = true
  body : found.body = part.2.map withoutEnd

private theorem sections_readFrom {found : List (List Char)} (areRows : AreRows found) :
    (sections (found.map withoutEnd)).1 = (sectionRows found).1.map withoutEnd ∧
      List.Forall₂ ReadFrom (sectionRows found).2 (sections (found.map withoutEnd)).2 := by
  induction found with
  | nil => exact ⟨rfl, .nil⟩
  | cons row found ih =>
    obtain ⟨-, later, -⟩ := rows_parted (show AreRows ([row] ++ found) from areRows)
    obtain ⟨front, parts⟩ := ih later
    have same := startsSection_withoutEnd row
    rw [List.map_cons, sections_cons, sectionRows_cons]
    cases starts : startsSection row with
    | true =>
      obtain ⟨header, -, marked⟩ := isPrefixOf?_of_startsSection (same.trans starts)
      rw [marked]
      refine ⟨rfl, .cons ⟨?_, starts, front⟩ parts⟩
      -- The rows up to the next section are rows of one text.
      rw [← flatten_sectionRows found, ← List.cons_append] at areRows
      exact (rows_parted areRows).1
    | false =>
      rw [isPrefixOf?_of_not_startsSection (same.trans starts)]
      exact ⟨congrArg (withoutEnd row :: ·) front, parts⟩

/-! ## The patch of a section -/

private theorem startsHunk_withoutEnd (row : List Char) : startsHunk (withoutEnd row) = startsHunk row := by
  rw [startsHunk, startsHunk, Bool.eq_iff_iff, List.isPrefixOf_iff_prefix, List.isPrefixOf_iff_prefix]
  exact prefix_withoutEnd_iff (by decide) (by decide) row

private theorem startsHunk_comp : (!startsHunk ·) ∘ withoutEnd = (!startsHunk ·) :=
  funext fun row => congrArg not (startsHunk_withoutEnd row)

private theorem quiet_of_startsSection {row : List Char} (starts : startsSection row = true) :
    startsHunk row = false ∧ saysBinary (withoutEnd row) = false := by
  have line := startsSection_withoutEnd row
  rw [starts] at line
  obtain ⟨header, rfl⟩ := startsSection_iff.mp starts
  obtain ⟨rest, same⟩ := startsSection_iff.mp line
  rw [← same]
  exact ⟨rfl, rfl⟩

private theorem rows_headText (part : List Char) : rows (headText part) = (rows part).takeWhile (!startsHunk ·) :=
  (rows_parted (List.takeWhile_append_dropWhile (p := (!startsHunk ·))).symm).1

private theorem rows_hunkText (part : List Char) : rows (hunkText part) = (rows part).dropWhile (!startsHunk ·) :=
  (rows_parted (List.takeWhile_append_dropWhile (p := (!startsHunk ·))).symm).2.1

/-- The hunks start on a line of their own, with the first line that starts one. -/
theorem hunkText_starts {part : List Char} (some : hunkText part ≠ []) :
    EndsLine (headText part) ∧ ['@', '@'] <+: hunkText part ∧
      ∀ line ∈ lines (headText part), startsHunk line = false := by
  have parted := (List.takeWhile_append_dropWhile (p := (!startsHunk ·)) (l := rows part)).symm
  refine ⟨(rows_parted parted).2.2 fun none => some (congrArg List.flatten none), ?_, ?_⟩
  · have first := List.head?_dropWhile_not (!startsHunk ·) (rows part)
    unfold hunkText at some ⊢
    cases hunks : (rows part).dropWhile (!startsHunk ·) with
    | nil => exact absurd (congrArg List.flatten hunks) some
    | cons row rest =>
      rw [hunks] at first
      have starts : startsHunk row = true := by simpa using first
      exact (List.isPrefixOf_iff_prefix.mp starts).trans (List.prefix_append row _)
  · rw [lines_eq_map_rows, rows_headText]
    intro line member
    obtain ⟨row, before, rfl⟩ := List.mem_map.mp member
    rw [startsHunk_withoutEnd]
    simpa using List.mem_takeWhile_imp before

namespace ReadFrom

variable {part : List Char × List (List Char)} {found : FileSection} (read : ReadFrom part found)

include read

private theorem rows_text : Text.rows (part.1 ++ part.2.flatten) = part.1 :: part.2 :=
  read.rows

private theorem hunks_eq : found.hunks = (Text.rows (hunkText (part.1 ++ part.2.flatten))).map withoutEnd := by
  rw [rows_hunkText, read.rows_text, FileSection.hunks, read.body, List.dropWhile_map, startsHunk_comp,
    List.dropWhile_cons_of_pos (p := (!startsHunk ·)) (by simp [quiet_of_startsSection read.starts])]

private theorem headers_eq : lines (headText (part.1 ++ part.2.flatten)) = withoutEnd part.1 :: found.headers := by
  rw [lines_eq_map_rows, rows_headText, read.rows_text, FileSection.headers, read.body, List.takeWhile_map,
    startsHunk_comp, List.takeWhile_cons_of_pos (p := (!startsHunk ·)) (by simp [quiet_of_startsSection read.starts]),
    List.map_cons]

private theorem patch?_eq : found.patch? =
    if hunkText (part.1 ++ part.2.flatten) = [] ∨
        ∃ line ∈ lines (headText (part.1 ++ part.2.flatten)), saysBinary line = true then none
    else some (closed (withoutReturns (hunkText (part.1 ++ part.2.flatten)))) := by
  have none_iff : found.hunks.isEmpty = true ↔ hunkText (part.1 ++ part.2.flatten) = [] := by
    rw [List.isEmpty_iff, read.hunks_eq, List.map_eq_nil_iff]
    constructor
    · intro none
      rw [← flatten_rows (hunkText _), none]
      rfl
    · intro none
      rw [none]
      rfl
  have binary_iff : found.headers.any saysBinary = true ↔
      ∃ line ∈ lines (headText (part.1 ++ part.2.flatten)), saysBinary line = true := by
    simp only [read.headers_eq, List.any_eq_true, List.mem_cons, exists_eq_or_imp,
      (quiet_of_startsSection read.starts).2, Bool.false_eq_true, false_or]
  have text : found.hunks.flatMap (· ++ ['\n']) =
      closed (withoutReturns (hunkText (part.1 ++ part.2.flatten))) := by
    rw [read.hunks_eq, List.flatMap_map, flatMap_rows]
  rw [FileSection.patch?, text]
  simp only [Bool.or_eq_true, none_iff, binary_iff]

end ReadFrom

/-! ## The patches of a diff -/

/-- The sections of a diff are read in order, each as the lines of its rows. -/
theorem parse_sectionTexts (text : String) :
    List.Forall₂ (fun part file => ∃ rows found, part = rows.1 ++ rows.2.flatten ∧ ReadFrom rows found ∧
        file = found.toChangedFile)
      (sectionTexts text.toList).2 (parse text) := by
  have read := (sections_readFrom (areRows_rows text.toList)).2
  rw [parse, lines_eq_map_rows, sectionTexts, List.forall₂_map_left_iff, List.forall₂_map_right_iff]
  exact read.imp fun rows found readFrom => ⟨rows, found, rfl, readFrom, rfl⟩

/-- The sections of a diff make up its text with what stands before the first. The file of a section has a patch if
there are hunks and nothing in front of them says that the file is binary. The patch is then the text from the first
line that starts a hunk to the end of the section, its last line ended, without the carriage returns in front of
newlines; so that text is kept as it stands exactly if it holds none. -/
theorem patches_verbatim_iff (text : String) :
    (sectionTexts text.toList).1 ++ (sectionTexts text.toList).2.flatten = text.toList ∧
      List.Forall₂ (fun part file =>
          headText part ++ hunkText part = part ∧
          (file.patch = none ↔ hunkText part = [] ∨ ∃ line ∈ lines (headText part), saysBinary line = true) ∧
          ∀ patch, file.patch = some patch →
            EndsLine (headText part) ∧ (∀ line ∈ lines (headText part), startsHunk line = false) ∧
            ['@', '@'] <+: hunkText part ∧
            patch.toList = closed (withoutReturns (hunkText part)) ∧
            (patch.toList = closed (hunkText part) ↔ ¬ ['\r', '\n'] <:+: hunkText part))
        (sectionTexts text.toList).2 (parse text) := by
  refine ⟨flatten_sectionTexts text.toList, (parse_sectionTexts text).imp ?_⟩
  rintro _ _ ⟨part, found, rfl, read, rfl⟩
  have shown : found.toChangedFile.patch = found.patch?.map String.ofList := rfl
  rw [shown, read.patch?_eq]
  refine ⟨headText_append_hunkText _, ?_, ?_⟩
  · split
    · next silent => exact ⟨fun _ => silent, fun _ => rfl⟩
    · next loud => exact ⟨nofun, fun silent => absurd silent loud⟩
  · intro patch
    split
    · exact nofun
    · next loud =>
      rintro ⟨⟩
      obtain ⟨ends, starts, before⟩ := hunkText_starts (not_or.mp loud).1
      rw [String.toList_ofList]
      exact ⟨ends, before, starts, rfl, closed_withoutReturns_iff _⟩

/-- Two files, of which the first has its line ends changed and the second has a carriage return within its last line,
which is left open. -/
def mixedLineEndsDiff : String :=
  "diff --git a/x b/x\n@@ -1 +1 @@\n-a\r\n+a\ndiff --git a/y b/y\r\nindex 1..2\n@@ -1 +1 @@\n-b\n+c\rd"

/-- The file with changed line ends has another patch than its hunks. A carriage return that ends no line is kept. -/
theorem patches_verbatim_iff_of_respelled :
    let first : ChangedFile := { filename := "x", status := .modified, patch := "@@ -1 +1 @@\n-a\n+a\n" }
    let second : ChangedFile := { filename := "y", status := .modified, patch := "@@ -1 +1 @@\n-b\n+c\rd\n" }
    let firstPart := "diff --git a/x b/x\n@@ -1 +1 @@\n-a\r\n+a\n".toList
    let secondPart := "diff --git a/y b/y\r\nindex 1..2\n@@ -1 +1 @@\n-b\n+c\rd".toList
    parse mixedLineEndsDiff = [first, second] ∧ (sectionTexts mixedLineEndsDiff.toList).2 = [firstPart, secondPart] ∧
      ['\r', '\n'] <:+: hunkText firstPart ∧
      "@@ -1 +1 @@\n-a\n+a\n".toList ≠ closed (hunkText firstPart) ∧
      ¬ ['\r', '\n'] <:+: hunkText secondPart ∧
      "@@ -1 +1 @@\n-b\n+c\rd\n".toList = closed (hunkText secondPart) := by
  intro first second firstPart secondPart
  have files : parse mixedLineEndsDiff = [first, second] := by decide +kernel
  have parts : (sectionTexts mixedLineEndsDiff.toList).2 = [firstPart, secondPart] := by decide +kernel
  have lost : ['\r', '\n'] <:+: hunkText firstPart := by decide +kernel
  have kept : ¬ ['\r', '\n'] <:+: hunkText secondPart := by decide +kernel
  have patches := (patches_verbatim_iff mixedLineEndsDiff).2
  rw [files, parts] at patches
  obtain ⟨⟨-, -, firstPatch⟩, rest⟩ := List.forall₂_cons.mp patches
  obtain ⟨⟨-, -, secondPatch⟩, -⟩ := List.forall₂_cons.mp rest
  obtain ⟨-, -, -, -, firstVerbatim⟩ := firstPatch _ rfl
  obtain ⟨-, -, -, -, secondVerbatim⟩ := secondPatch _ rfl
  exact ⟨files, parts, lost, fun same => firstVerbatim.mp same lost, kept, secondVerbatim.mpr kept⟩

/-- A change of the line ends of a file leaves no trace in its patch, which is no part of the diff then. -/
theorem changed_line_end_lost :
    parse "diff --git a/x b/x\n@@ -1 +1 @@\n-a\r\n+a\n" =
        [{ filename := "x", status := .modified, patch := "@@ -1 +1 @@\n-a\n+a\n" }] ∧
      ¬ "@@ -1 +1 @@\n-a\n+a".toList <:+: "diff --git a/x b/x\n@@ -1 +1 @@\n-a\r\n+a\n".toList :=
  ⟨by decide +kernel, by decide +kernel⟩

end Diff

end ReviewContext
