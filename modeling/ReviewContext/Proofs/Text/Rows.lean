import Mathlib.Data.List.Basic
import ReviewContext.Proofs.Text.Words

/-! # Rows

A row of a text is a line together with what ends it, so the rows one after the other are the text. A line is a row
without its end. A text of two parts has the rows of both if the first part ends its last line.
-/

namespace ReviewContext.Text

theorem splitOn_separator (separator : Char) (cs : List Char) :
    splitOn separator (separator :: cs) = [] :: splitOn separator cs := by
  simp [splitOn, splitBy]

private theorem splitOn_ne_nil (separator : Char) (cs : List Char) : splitOn separator cs ≠ [] := by
  cases cs with
  | nil => exact List.cons_ne_nil [] []
  | cons c cs =>
    rw [splitOn, splitBy, List.foldr_cons]
    split
    · exact List.cons_ne_nil _ _
    · split <;> exact List.cons_ne_nil _ _

theorem exists_splitOn_cons {separator c : Char} (solid : c ≠ separator) (cs : List Char) :
    ∃ line lines, splitOn separator cs = line :: lines ∧ splitOn separator (c :: cs) = (c :: line) :: lines := by
  obtain ⟨line, lines, split⟩ := List.exists_cons_of_ne_nil (splitOn_ne_nil separator cs)
  refine ⟨line, lines, split, ?_⟩
  unfold splitOn splitBy at split ⊢
  rw [List.foldr_cons, split, if_neg (by simpa using solid)]

private theorem solid_of_not_mem {separator : Char} {piece : List Char} (inside : separator ∉ piece) :
    ∀ c ∈ piece, (c == separator) = false := by
  intro c member
  rw [beq_eq_false_iff_ne]
  rintro rfl
  exact inside member

/-- A piece that does not hold the separator is the first of the pieces. -/
theorem splitOn_append {separator : Char} {piece : List Char} (inside : separator ∉ piece) (cs : List Char) :
    splitOn separator (piece ++ separator :: cs) = piece :: splitOn separator cs :=
  splitBy_append (solid_of_not_mem inside) (beq_self_eq_true separator) cs

theorem splitOn_of_solid {separator : Char} {piece : List Char} (inside : separator ∉ piece) :
    splitOn separator piece = [piece] :=
  splitBy_of_solid (solid_of_not_mem inside)

/-- At a separator the pieces of two texts stand one after the other. -/
theorem splitOn_append_separator (separator : Char) (cs ds : List Char) :
    splitOn separator (cs ++ separator :: ds) = splitOn separator cs ++ splitOn separator ds := by
  induction cs with
  | nil => exact splitOn_separator separator ds
  | cons c cs ih =>
    by_cases same : c = separator
    · rw [same, List.cons_append, splitOn_separator, splitOn_separator, ih, List.cons_append]
    · obtain ⟨line, lines, first, whole⟩ := exists_splitOn_cons same cs
      obtain ⟨longer, more, second, both⟩ := exists_splitOn_cons same (cs ++ separator :: ds)
      rw [second, first, List.cons_append] at ih
      obtain ⟨rfl, rfl⟩ := List.cons.inj ih
      rw [List.cons_append, both, whole, List.cons_append]

/-! ## Rows and lines -/

/-- The lines of a text, each with its newline. -/
def rows : List Char → List (List Char)
  | [] => []
  | c :: cs =>
    if c = '\n' then ['\n'] :: rows cs
    else
      match rows cs with
      | [] => [[c]]
      | row :: rest => (c :: row) :: rest

/-- The line of a row. -/
def withoutEnd (row : List Char) : List Char :=
  if row.getLast? = some '\n' then withoutReturn row.dropLast else row

/-- No line of the text is left open. -/
def EndsLine (cs : List Char) : Prop :=
  cs = [] ∨ cs.getLast? = some '\n'

instance (cs : List Char) : Decidable (EndsLine cs) :=
  inferInstanceAs (Decidable (_ ∨ _))

variable {cs row : List Char}

/-- A text is told by its first line and the rest of it, or is one line without an end. -/
@[elab_as_elim]
theorem row_induction {motive : List Char → Prop} (last : ∀ row, '\n' ∉ row → motive row)
    (ended : ∀ row cs, '\n' ∉ row → motive cs → motive (row ++ '\n' :: cs)) (cs : List Char) : motive cs := by
  -- The characters read so far are the start of a row.
  have behind (row : List Char) (inRow : '\n' ∉ row) : motive (row ++ cs) := by
    induction cs generalizing row with
    | nil =>
      rw [List.append_nil]
      exact last row inRow
    | cons c cs ih =>
      by_cases newline : c = '\n'
      · subst newline
        exact ended row cs inRow (ih [] List.not_mem_nil)
      · have longer : '\n' ∉ row ++ [c] := by
          rw [List.mem_append, List.mem_singleton]
          exact not_or.mpr ⟨inRow, Ne.symm newline⟩
        have later := ih (row ++ [c]) longer
        rwa [List.append_assoc, List.singleton_append] at later
  exact behind [] List.not_mem_nil

theorem rows_ended (inRow : '\n' ∉ row) (cs : List Char) : rows (row ++ '\n' :: cs) = (row ++ ['\n']) :: rows cs := by
  induction row with
  | nil => rfl
  | cons c row ih =>
    obtain ⟨other, inRow⟩ := not_or.mp (mt List.mem_cons.mpr inRow)
    rw [List.cons_append, rows, if_neg (Ne.symm other), ih inRow]
    rfl

theorem rows_open (inRow : '\n' ∉ row) (some : row ≠ []) : rows row = [row] := by
  induction row with
  | nil => exact absurd rfl some
  | cons c row ih =>
    obtain ⟨other, inRow⟩ := not_or.mp (mt List.mem_cons.mpr inRow)
    rw [rows, if_neg (Ne.symm other)]
    cases row with
    | nil => rfl
    | cons d row => rw [ih inRow (List.cons_ne_nil d row)]

theorem lines_ended_cons (inRow : '\n' ∉ row) (cs : List Char) :
    lines (row ++ '\n' :: cs) = withoutReturn row :: lines cs := by
  obtain ⟨piece, pieces, split⟩ := List.exists_cons_of_ne_nil (splitOn_ne_nil '\n' cs)
  unfold lines
  rw [splitOn_append inRow, split]
  rfl

private theorem lines_open (inRow : '\n' ∉ row) (some : row ≠ []) : lines row = [row] := by
  unfold lines
  rw [splitOn_of_solid inRow]
  simp [some]

/-- The end of a row is a newline, with a carriage return in front of it if there is one. -/
theorem withoutEnd_ended (row : List Char) : withoutEnd (row ++ ['\n']) = withoutReturn row := by
  rw [withoutEnd, List.getLast?_concat, if_pos rfl, List.dropLast_concat]

/-- A row that is left open has no end to be dropped, not even a carriage return. -/
theorem withoutEnd_open (inRow : '\n' ∉ row) : withoutEnd row = row :=
  if_neg fun last => inRow (List.mem_of_getLast? last)

/-- The lines of a text are its rows without their ends. -/
theorem lines_eq_map_rows (cs : List Char) : lines cs = (rows cs).map withoutEnd := by
  induction cs using row_induction with
  | last row inRow =>
    cases row with
    | nil => rfl
    | cons c row =>
      have some := List.cons_ne_nil c row
      rw [lines_open inRow some, rows_open inRow some, List.map_singleton, withoutEnd_open inRow]
  | ended row cs inRow ih =>
    rw [lines_ended_cons inRow, rows_ended inRow, List.map_cons, withoutEnd_ended, ih]

/-- The rows one after the other are the text. -/
theorem flatten_rows (cs : List Char) : (rows cs).flatten = cs := by
  induction cs using row_induction with
  | last row inRow =>
    cases row with
    | nil => rfl
    | cons c row => rw [rows_open inRow (List.cons_ne_nil c row), List.flatten_singleton]
  | ended row cs inRow ih => rw [rows_ended inRow, List.flatten_cons, ih, List.append_assoc, List.singleton_append]

theorem EndsLine.behind (ends : EndsLine (row ++ '\n' :: cs)) : EndsLine cs := by
  cases cs with
  | nil => exact .inl rfl
  | cons c cs =>
    rcases ends with none | last
    · simp at none
    · right
      rwa [List.getLast?_append_of_ne_nil _ (List.cons_ne_nil _ _), List.getLast?_cons_cons] at last

theorem EndsLine.eq_nil (ends : EndsLine row) (inRow : '\n' ∉ row) : row = [] :=
  ends.resolve_right fun last => inRow (List.mem_of_getLast? last)

private theorem rows_append {front : List Char} (ends : EndsLine front) (cs : List Char) :
    rows (front ++ cs) = rows front ++ rows cs := by
  induction front using row_induction with
  | last row inRow =>
    obtain rfl := ends.eq_nil inRow
    rfl
  | ended row front inRow ih =>
    rw [List.append_assoc, List.cons_append, rows_ended inRow, rows_ended inRow, ih ends.behind, List.cons_append]

/-- A part that ends its last line has lines of its own. -/
theorem lines_append {front : List Char} (ends : EndsLine front) (cs : List Char) :
    lines (front ++ cs) = lines front ++ lines cs := by
  simp only [lines_eq_map_rows, rows_append ends, List.map_append]

/-! ## What starts a row -/

private theorem prefix_of_not_mem {mark front : List Char} {c : Char} {rest : List Char}
    (starts : mark <+: front ++ c :: rest) (absent : c ∉ mark) : mark <+: front := by
  rcases List.prefix_or_prefix_of_prefix starts (List.prefix_append front _) with short | ⟨more, rfl⟩
  · exact short
  · cases more with
    | nil => exact (List.append_nil front).symm ▸ List.prefix_rfl
    | cons d more =>
      obtain ⟨rfl, -⟩ := List.cons_prefix_cons.mp ((List.prefix_append_right_inj front).mp starts)
      exact absurd (List.mem_append_right front List.mem_cons_self) absent

/-- The end of a row is all that is missing in its line. -/
theorem exists_end (row : List Char) : ∃ rest, row = withoutEnd row ++ rest ∧ ∀ c ∈ rest, c = '\r' ∨ c = '\n' := by
  by_cases newline : row.getLast? = some '\n'
  · obtain ⟨line, rfl⟩ := List.getLast?_eq_some_iff.mp newline
    rw [withoutEnd_ended, withoutReturn]
    split
    · next ret =>
      obtain ⟨line, rfl⟩ := List.getLast?_eq_some_iff.mp ret
      exact ⟨['\r', '\n'], by simp, by simp⟩
    · exact ⟨['\n'], rfl, by simp⟩
  · exact ⟨[], by rw [withoutEnd, if_neg newline, List.append_nil], nofun⟩

/-- A mark without line ends starts a line exactly if it starts the row. -/
theorem prefix_withoutEnd_iff {mark : List Char} (inLine : '\n' ∉ mark) (noReturn : '\r' ∉ mark) (row : List Char) :
    mark <+: withoutEnd row ↔ mark <+: row := by
  obtain ⟨rest, whole, ends⟩ := exists_end row
  constructor
  · intro starts
    rw [whole]
    exact starts.trans (List.prefix_append _ _)
  · intro starts
    cases rest with
    | nil => rwa [whole, List.append_nil] at starts
    | cons c rest =>
      rw [whole] at starts
      apply prefix_of_not_mem starts
      rcases ends c List.mem_cons_self with rfl | rfl
      · exact noReturn
      · exact inLine

/-- A mark without a newline at the head of a text starts its first row. -/
theorem prefix_first_row {mark : List Char} (inLine : '\n' ∉ mark) (starts : mark <+: cs) {rest : List (List Char)}
    (first : rows cs = row :: rest) : mark <+: row := by
  induction cs using row_induction with
  | last line inRow =>
    cases line with
    | nil => cases first
    | cons c line =>
      rw [rows_open inRow (List.cons_ne_nil c line)] at first
      obtain ⟨rfl, -⟩ := List.cons.inj first
      exact starts
  | ended line cs inRow ih =>
    rw [rows_ended inRow] at first
    obtain ⟨rfl, -⟩ := List.cons.inj first
    exact (prefix_of_not_mem starts inLine).trans (List.prefix_append line _)

end ReviewContext.Text
