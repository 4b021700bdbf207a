import ReviewContext.Proofs.Diff.Layout

/-! # Sections are read apart

What a section of a diff is read as does not depend on the other sections, nor on what stands in front of the first,
whatever is wrong with any of them. A diff of two parts gives the files of both if the second part starts a section on
a line of its own.
-/

namespace ReviewContext.Diff

open Text

/-- Whether a line starts a section. -/
def startsSection (line : List Char) : Bool :=
  sectionMark.isPrefixOf line

/-! ## Lines that start a section -/

section Lines

variable {line : List Char}

/-- A line starts a section if the mark stands at its head. -/
theorem startsSection_iff : startsSection line = true ↔ sectionMark <+: line :=
  List.isPrefixOf_iff_prefix

theorem isPrefixOf?_of_startsSection (starts : startsSection line = true) :
    ∃ header, line = sectionMark ++ header ∧ sectionMark.isPrefixOf? line = some header := by
  obtain ⟨header, rfl⟩ := startsSection_iff.mp starts
  exact ⟨header, rfl, List.isPrefixOf?_eq_some_iff_append_eq.mpr rfl⟩

theorem isPrefixOf?_of_not_startsSection (within : startsSection line = false) :
    sectionMark.isPrefixOf? line = none := by
  cases found : sectionMark.isPrefixOf? line with
  | none => rfl
  | some header =>
    obtain rfl := List.isPrefixOf?_eq_some_iff_append_eq.mp found
    have starts := startsSection_iff.mpr (List.prefix_append sectionMark header)
    rw [within] at starts
    cases starts

/-- The end of a row does not matter for whether it starts a section. -/
theorem startsSection_withoutEnd (row : List Char) : startsSection (withoutEnd row) = startsSection row := by
  rw [Bool.eq_iff_iff, startsSection_iff, startsSection_iff]
  exact prefix_withoutEnd_iff (by decide) (by decide) row

end Lines

/-! ## Sections of two parts -/

variable {front back : List (List Char)}

private theorem sections_append (clean : (sections back).1 = []) (front : List (List Char)) :
    sections (front ++ back) = ((sections front).1, (sections front).2 ++ (sections back).2) := by
  induction front with
  | nil => exact Prod.ext clean rfl
  | cons line front ih =>
    rw [List.cons_append, sections_cons, sections_cons, ih]
    cases sectionMark.isPrefixOf? line with
    | none => rfl
    | some header => rfl

private theorem sections_unstarted (within : ∀ line ∈ front, startsSection line = false) (back : List (List Char)) :
    (sections (front ++ back)).2 = (sections back).2 := by
  rw [sections_body fun line member => isPrefixOf?_of_not_startsSection (within line member)]

private theorem length_sections (lines : List (List Char)) :
    (sections lines).2.length = lines.countP startsSection := by
  induction lines with
  | nil => rfl
  | cons line lines ih =>
    rw [sections_cons]
    cases starts : startsSection line with
    | true =>
      obtain ⟨header, -, found⟩ := isPrefixOf?_of_startsSection starts
      rw [found, List.countP_cons_of_pos starts, ← ih]
      rfl
    | false =>
      rw [isPrefixOf?_of_not_startsSection starts, List.countP_cons_of_neg (by simp [starts]), ← ih]

/-- Nothing stands in front of the first section of a text that starts with one. -/
theorem sections_started {text : List Char} (starts : text = [] ∨ sectionMark <+: text) :
    (sections (lines text)).1 = [] := by
  rcases starts with rfl | starts
  · rfl
  · rw [lines_eq_map_rows]
    cases found : rows text with
    | nil => rfl
    | cons row rest =>
      have first : startsSection (withoutEnd row) = true := by
        rw [startsSection_withoutEnd, startsSection_iff]
        exact prefix_first_row (by decide) starts found
      obtain ⟨header, -, marked⟩ := isPrefixOf?_of_startsSection first
      rw [List.map_cons, sections_cons, marked]

/-! ## The files of two parts -/

private theorem parse_append {front back : String} (ends : EndsLine front.toList)
    (starts : back.toList = [] ∨ sectionMark <+: back.toList) :
    parse (front ++ back) = parse front ++ parse back := by
  rw [parse, parse, parse, String.toList_append, lines_append ends, sections_append (sections_started starts),
    List.map_append]

private theorem length_parse (text : String) : (parse text).length = (lines text.toList).countP startsSection := by
  rw [parse, List.length_map, length_sections]

private theorem parse_unstarted {front : String} (ends : EndsLine front.toList)
    (within : ∀ line ∈ lines front.toList, startsSection line = false) (back : String) :
    parse (front ++ back) = parse back := by
  rw [parse, parse, String.toList_append, lines_append ends, sections_unstarted within]

/-- The files of a diff of two parts are those of the first and those of the second, if the first ends its last line and
the second starts a section; so a diff has a file for each line that starts a section, and what stands in front of the
first such line is ignored. -/
theorem sections_apart :
    (∀ front back : String, EndsLine front.toList → (back.toList = [] ∨ sectionMark <+: back.toList) →
      parse (front ++ back) = parse front ++ parse back) ∧
    (∀ text : String, (parse text).length = (lines text.toList).countP startsSection) ∧
    ∀ front back : String, EndsLine front.toList → (∀ line ∈ lines front.toList, startsSection line = false) →
      parse (front ++ back) = parse back :=
  ⟨fun _ _ => parse_append, length_parse, fun _ back ends within => parse_unstarted ends within back⟩

/-- A first part with a message, a hunk that is cut off, carriage returns, and a header that is its last line. -/
def brokenSections : String :=
  "commit 1\n\ndiff --git a/x b/x\r\n@@ -1\r\n+diff --git\n@@\n\ndiff --git half\n"

/-- A second part with a binary file, and a header without an end. -/
def binarySections : String :=
  "diff --git a/y b/y\nnew file mode 1\nGIT binary patch\n@@\ndiff --git a/z b/z"

/-- Broken sections in front are read alone as together with what follows, each giving a file. -/
theorem sections_apart_of_broken :
    EndsLine brokenSections.toList ∧ sectionMark <+: binarySections.toList ∧
      parse (brokenSections ++ binarySections) = parse brokenSections ++ parse binarySections ∧
      parse brokenSections = [{ filename := "x", status := .modified, patch := "@@ -1\n+diff --git\n@@\n\n" },
        { filename := "", status := .modified }] ∧
      parse binarySections = [{ filename := "y", status := .added }, { filename := "z", status := .modified }] ∧
      (parse brokenSections).length = (lines brokenSections.toList).countP startsSection ∧
      EndsLine "commit 1\n\n".toList ∧ (∀ line ∈ lines "commit 1\n\n".toList, startsSection line = false) ∧
      parse ("commit 1\n\n" ++ binarySections) = parse binarySections := by
  obtain ⟨together, counted, unstarted⟩ := sections_apart
  have ends : EndsLine brokenSections.toList := by decide +kernel
  have starts : sectionMark <+: binarySections.toList := by decide +kernel
  have short : EndsLine "commit 1\n\n".toList := by decide +kernel
  have quiet : ∀ line ∈ lines "commit 1\n\n".toList, startsSection line = false := by decide +kernel
  exact ⟨ends, starts, together brokenSections binarySections ends (.inr starts), by decide +kernel, by decide +kernel,
    counted brokenSections, short, quiet, unstarted _ binarySections short quiet⟩

end ReviewContext.Diff
