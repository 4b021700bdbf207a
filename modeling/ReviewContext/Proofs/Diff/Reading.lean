import Mathlib.Data.List.Infix
import Mathlib.Data.List.Forall2
import ReviewContext.Proofs.Diff.Layout

/-! # Reading a diff back

Reading what git writes of some changes gives the record of each, in order, if no old name holds what looks like the
start of the second name in a header: a space with the mark of a side behind it. The name of a file that holds one is
never read as it is.
-/

namespace ReviewContext.Diff

/-- Whether a path holds a space with the mark of a side behind it. -/
def HoldsSide (path : List Char) : Prop :=
  ∃ mark ∈ ['a', 'b', 'c', 'w', 'i', 'o'], [' ', mark, '/'] <:+: path

instance (path : List Char) : Decidable (HoldsSide path) :=
  List.decidableBEx _ _

/-! ## Where a header is cut -/

section Cut

variable {path side : List Char}

private theorem startsSide_iff (cs : List Char) :
    startsSide cs = true ↔ ∃ mark ∈ ['a', 'b', 'c', 'w', 'i', 'o'], [mark, '/'] <+: cs := by
  constructor
  · intro starts
    unfold startsSide at starts
    split at starts
    · next mark rest => exact ⟨mark, List.contains_iff_mem.mp starts, ⟨rest, rfl⟩⟩
    · cases starts
  · rintro ⟨mark, isMark, rest, rfl⟩
    exact List.contains_iff_mem.mpr isMark

/-- A text that starts with the mark of a side does so with anything behind it. -/
theorem startsSide_append (starts : startsSide path = true) (rest : List Char) :
    startsSide (path ++ rest) = true := by
  rw [startsSide_iff] at starts ⊢
  obtain ⟨mark, isMark, prefixes⟩ := starts
  exact ⟨mark, isMark, prefixes.trans (List.prefix_append path rest)⟩

/-- Only a mark of the path's own stands at its head when a space follows the path. -/
theorem startsSide_of_space (starts : startsSide (path ++ ' ' :: side) = true) : startsSide path = true := by
  rw [startsSide_iff] at starts ⊢
  obtain ⟨mark, isMark, rest, same⟩ := starts
  match path with
  | [] =>
    obtain ⟨head, -⟩ := List.cons.inj same
    rw [head] at isMark
    exact absurd isMark (by decide)
  | [c] => simp at same
  | c :: d :: more =>
    obtain ⟨first, same⟩ := List.cons.inj same
    obtain ⟨second, -⟩ := List.cons.inj same
    exact ⟨mark, isMark, more, by rw [first, second]; rfl⟩

/-- A text holds the mark of a side behind a space at its head, or somewhere behind that. -/
theorem holdsSide_cons (c : Char) (cs : List Char) :
    HoldsSide (c :: cs) ↔ c = ' ' ∧ startsSide cs = true ∨ HoldsSide cs := by
  simp only [HoldsSide, startsSide_iff, List.infix_cons_iff, List.cons_prefix_cons]
  constructor
  · rintro ⟨mark, isMark, ⟨space, prefixes⟩ | inside⟩
    · exact .inl ⟨space.symm, mark, isMark, prefixes⟩
    · exact .inr ⟨mark, isMark, inside⟩
  · rintro (⟨rfl, mark, isMark, prefixes⟩ | ⟨mark, isMark, inside⟩)
    · exact ⟨mark, isMark, .inl ⟨rfl, prefixes⟩⟩
    · exact ⟨mark, isMark, .inr inside⟩

/-- The header is cut at its first mark of a side. -/
theorem cutAtSide?_cons (c : Char) (cs : List Char) : cutAtSide? (c :: cs) =
    if c = ' ' && startsSide cs then some ([], cs)
    else (cutAtSide? cs).map fun (old, new) => (c :: old, new) :=
  rfl

/-- A path that holds no mark is whole in front of the first. -/
theorem cutAtSide?_of_unmarked (unmarked : ¬ HoldsSide path) (starts : startsSide side = true) :
    cutAtSide? (path ++ ' ' :: side) = some (path, side) := by
  induction path with
  | nil => simp [cutAtSide?_cons, starts]
  | cons c cs ih =>
    rw [holdsSide_cons, not_or] at unmarked
    have inside : ¬ (c = ' ' && startsSide (cs ++ ' ' :: side)) = true := by
      intro marked
      obtain ⟨space, marked⟩ := (Bool.and_eq_true ..).mp marked
      exact unmarked.1 ⟨of_decide_eq_true space, startsSide_of_space marked⟩
    rw [List.cons_append, cutAtSide?_cons, if_neg inside, ih unmarked.2]
    rfl

/-- A path that holds a mark is cut in front of it, whatever follows. -/
theorem exists_cutAtSide? (marked : HoldsSide path) : ∃ front back, path = front ++ ' ' :: back ∧
    startsSide back = true ∧ ∀ rest, cutAtSide? (path ++ rest) = some (front, back ++ rest) := by
  induction path with
  | nil => exact absurd marked (by decide)
  | cons c cs ih =>
    by_cases here : c = ' ' ∧ startsSide cs = true
    · obtain ⟨rfl, starts⟩ := here
      refine ⟨[], cs, rfl, starts, fun rest => ?_⟩
      rw [List.cons_append, cutAtSide?_cons, startsSide_append starts]
      rfl
    · obtain ⟨front, back, rfl, starts, cut⟩ := ih (((holdsSide_cons c cs).mp marked).resolve_left here)
      refine ⟨c :: front, back, rfl, starts, fun rest => ?_⟩
      have inside : ¬ (c = ' ' && startsSide (front ++ ' ' :: (back ++ rest))) = true := by
        intro marked
        obtain ⟨space, marked⟩ := (Bool.and_eq_true ..).mp marked
        exact here ⟨of_decide_eq_true space, startsSide_append (startsSide_of_space marked) _⟩
      have tail := cut rest
      rw [List.append_assoc, List.cons_append] at tail
      rw [List.cons_append, List.append_assoc, List.cons_append, cutAtSide?_cons, if_neg inside, tail]
      rfl

end Cut

/-! ## The names that are read -/

section Names

variable {old : List Char} (new : List Char)

/-- Both names of a header are read as they are if the old one holds no mark. -/
theorem paths_of_unmarked (unmarked : ¬ HoldsSide old) :
    paths ("a/".toList ++ old ++ " b/".toList ++ new) = (old, new) := by
  have inner : ¬ HoldsSide ('/' :: old) := by
    rw [holdsSide_cons]
    rintro (⟨slash, -⟩ | marked)
    · exact absurd slash (by decide)
    · exact unmarked marked
  have cut : cutAtSide? ('/' :: old ++ ' ' :: 'b' :: '/' :: new) = some ('/' :: old, 'b' :: '/' :: new) :=
    cutAtSide?_of_unmarked inner rfl
  have header : "a/".toList ++ old ++ " b/".toList ++ new = 'a' :: ('/' :: old ++ ' ' :: 'b' :: '/' :: new) := by
    simp
  rw [header, paths, cutHeader, cut]
  rfl

/-- Of an old name that holds a mark only what is in front of it is read, and the rest becomes part of the new
name. -/
theorem exists_paths (marked : HoldsSide old) : ∃ front mark back, old = front ++ ' ' :: mark :: '/' :: back ∧
    paths ("a/".toList ++ old ++ " b/".toList ++ new) = (front, back ++ " b/".toList ++ new) := by
  obtain ⟨front, side, rfl, starts, cut⟩ := exists_cutAtSide? marked
  obtain ⟨mark, isMark, back, rfl⟩ := (startsSide_iff side).mp starts
  have inner : cutAtSide? ('/' :: (front ++ ' ' :: mark :: '/' :: back ++ ' ' :: 'b' :: '/' :: new)) =
      some ('/' :: front, mark :: '/' :: (back ++ ' ' :: 'b' :: '/' :: new)) := by
    have slash : ¬ ('/' = ' ' && startsSide (front ++ ' ' :: mark :: '/' :: back ++ ' ' :: 'b' :: '/' :: new)) :=
      Bool.false_ne_true
    have tail := cut (' ' :: 'b' :: '/' :: new)
    simp only [List.append_assoc, List.cons_append, List.nil_append] at slash tail ⊢
    rw [cutAtSide?_cons, if_neg slash, tail]
    rfl
  have header : "a/".toList ++ (front ++ ' ' :: mark :: '/' :: back) ++ " b/".toList ++ new =
      'a' :: '/' :: (front ++ ' ' :: mark :: '/' :: back ++ ' ' :: 'b' :: '/' :: new) := by
    simp
  have second : withoutSide (mark :: '/' :: (back ++ ' ' :: 'b' :: '/' :: new)) = back ++ " b/".toList ++ new := by
    have starts : startsSide (mark :: '/' :: (back ++ ' ' :: 'b' :: '/' :: new)) = true :=
      List.contains_iff_mem.mpr isMark
    rw [withoutSide, if_pos starts]
    simp
  refine ⟨front, mark, back, by simp, ?_⟩
  simp only [List.cons_append, List.nil_append] at header ⊢
  rw [header, paths, cutHeader, inner]
  exact congrArg (Prod.mk front) second

/-- A name that holds a mark is read as another name on both sides. -/
theorem paths_ne_of_marked {name : List Char} (marked : HoldsSide name) :
    (paths ("a/".toList ++ name ++ " b/".toList ++ name)).1 ≠ name ∧
      (paths ("a/".toList ++ name ++ " b/".toList ++ name)).2 ≠ name := by
  obtain ⟨front, mark, back, whole, read⟩ := exists_paths name marked
  rw [read]
  constructor
  · intro equal
    have length := congrArg List.length (equal.trans whole)
    simp only [List.length_append, List.length_cons] at length
    omega
  · intro equal
    have length := congrArg List.length equal
    have sign : " b/".toList.length = 3 := by decide
    simp only [List.length_append, sign] at length
    omega

end Names

/-! ## The records that are read -/

namespace Change

variable (change : Change)

private theorem rows_startHunk : change.content.rows.takeWhile (!startsHunk ·) = [] := by
  cases change.content with
  | nothing => rfl
  | binary rest => rfl
  | hunks first more => rfl

private theorem headers_part : change.part.headers = change.heads := by
  have quiet : ∀ row ∈ change.heads, (!startsHunk row) = true := by
    intro row member
    obtain ⟨_, _, tells⟩ := change.heads_tell row member
    rw [tells.hunk]
    rfl
  rw [FileSection.headers, part, List.takeWhile_append_of_pos quiet, rows_startHunk, List.append_nil]

private theorem hunks_part : change.part.hunks = change.content.rows := by
  have whole := List.takeWhile_append_dropWhile (p := (!startsHunk ·)) (l := change.part.body)
  have headers := change.headers_part
  unfold FileSection.headers at headers
  rw [headers] at whole
  exact List.append_cancel_left whole

private theorem status_part : change.part.status = change.event.status := by
  have silent {notes : List Note} : (notes.map Note.row).filterMap statusOf? = [] := by
    rw [List.filterMap_eq_nil_iff]
    intro row member
    obtain ⟨note, -, rfl⟩ := List.mem_map.mp member
    exact note.tells.status
  have notice : change.content.notice.filterMap statusOf? = [] := by
    rw [List.filterMap_eq_nil_iff]
    exact fun row member => (change.content.tells row member).status
  have told : (change.event.rows change.old).filterMap statusOf? =
      (change.event.rows change.old).map fun _ => change.event.status := by
    rw [← List.filterMap_eq_map]
    exact List.filterMap_congr fun row member => (change.event.tells change.old row member).status
  have all : change.part.headers.filterMap statusOf? =
      (change.event.rows change.old).map fun _ => change.event.status := by
    rw [headers_part, heads, List.filterMap_append, List.filterMap_append, List.filterMap_append, silent, silent,
      notice, told, List.nil_append, List.append_nil, List.append_nil]
  rw [FileSection.status, all]
  cases change.event <;> rfl

private theorem any_saysBinary : change.part.headers.any saysBinary = !change.content.notice.isEmpty := by
  have silent {notes : List Note} : (notes.map Note.row).any saysBinary = false := by
    rw [List.any_eq_false]
    intro row member
    obtain ⟨note, -, rfl⟩ := List.mem_map.mp member
    rw [note.tells.binary]
    exact Bool.false_ne_true
  have told : (change.event.rows change.old).any saysBinary = false := by
    rw [List.any_eq_false]
    intro row member
    rw [(change.event.tells change.old row member).binary]
    exact Bool.false_ne_true
  rw [headers_part, heads, List.any_append, List.any_append, List.any_append, silent, silent, told]
  cases change.content <;> rfl

private theorem intercalate_ended (row : List Char) (rows : List (List Char)) :
    ['\n'].intercalate (row :: rows) ++ ['\n'] = (row :: rows).flatMap (· ++ ['\n']) := by
  induction rows generalizing row with
  | nil => simp
  | cons next rows ih =>
    rw [List.intercalate_cons_cons, List.append_assoc, List.append_assoc, ih next]
    simp only [List.flatMap_cons, List.append_assoc]

private theorem patch_part : change.part.patch? = change.content.patch? := by
  rw [FileSection.patch?, hunks_part, any_saysBinary]
  cases change.content with
  | nothing => rfl
  | binary rest => rfl
  | hunks first more =>
    have some : Content.rows (.hunks first more) =
        ('@' :: '@' :: first.place.text) :: (first.rows.tail ++ more.flatMap Hunk.rows) := rfl
    rw [Content.patch?, ← Content.rows, some, intercalate_ended]
    rfl

/-- A section is read as the record of its change, its name apart. -/
theorem toChangedFile_part : change.part.toChangedFile =
    { change.file with filename := String.ofList (change.event.choose (paths change.names)) } := by
  rw [FileSection.toChangedFile, status_part, patch_part, file]
  cases change.event <;> rfl

/-- The record of a change is read from its section if its old name holds no mark. -/
theorem toChangedFile_of_unmarked (unmarked : ¬ HoldsSide change.old.text) :
    change.part.toChangedFile = change.file := by
  rw [toChangedFile_part, names, paths_of_unmarked _ unmarked]
  rfl

/-- The name of a file that keeps it is read from its section exactly if it holds no mark. -/
theorem filename_part_iff (kept : change.new = change.old) :
    change.part.toChangedFile.filename = String.ofList change.old.text ↔ ¬ HoldsSide change.old.text := by
  rw [toChangedFile_part, String.ofList_inj, names, kept]
  constructor
  · intro same marked
    obtain ⟨older, newer⟩ := paths_ne_of_marked marked
    cases event : change.event with
    | removed mode => exact older (by rwa [event] at same)
    | modified => exact newer (by rwa [event] at same)
    | added mode => exact newer (by rwa [event] at same)
    | renamed other => exact newer (by rwa [event] at same)
  · intro unmarked
    rw [paths_of_unmarked _ unmarked]
    cases change.event <;> rfl

end Change

/-! ## The records of a diff -/

/-- Reading what is written of some changes gives the record of each, in order, if no old name holds a space with the
mark of a side behind it. -/
theorem parse_written_eq_files (changes : List Change) (unmarked : ∀ change ∈ changes, ¬ HoldsSide change.old.text) :
    parse (String.ofList (written changes)) = changes.map Change.file := by
  rw [parse_written]
  exact List.map_congr_left fun change member => change.toChangedFile_of_unmarked (unmarked change member)

/-- A file that moves and changes lines that look like headers, a new image, and a text that is gone. -/
def movedAddedRemoved : List Change :=
  [{ old := ⟨"my notes.md".toList, by decide, by decide, by decide⟩
     event := .renamed ⟨"doc b/notes.md".toList, by decide, by decide, by decide⟩
     before := [⟨.similarity, ⟨"90%".toList, by decide⟩⟩]
     after := [⟨.index, ⟨"12..34 100644".toList, by decide⟩⟩, ⟨.oldName, ⟨"a/my notes.md\t".toList, by decide⟩⟩,
       ⟨.newName, ⟨"b/doc b/notes.md\t".toList, by decide⟩⟩]
     content := .hunks ⟨⟨" -1 +1,2 @@".toList, by decide⟩, [(.removed, ⟨"-- a/my notes.md".toList, by decide⟩),
       (.added, ⟨"new file mode".toList, by decide⟩), (.remark, ⟨" No newline at end of file".toList, by decide⟩)]⟩
       [⟨⟨" -9 +10 @@".toList, by decide⟩, [(.context, ⟨[], by decide⟩)]⟩] },
   { old := ⟨"a.png".toList, by decide, by decide, by decide⟩
     event := .added ⟨"100644".toList, by decide⟩
     before := []
     after := [⟨.index, ⟨"0..1".toList, by decide⟩⟩]
     content := .binary ⟨" /dev/null and b/a.png differ".toList, by decide⟩ },
   { old := ⟨"a.txt".toList, by decide, by decide, by decide⟩
     event := .removed ⟨"100644".toList, by decide⟩
     before := []
     after := []
     content := .nothing }]

/-- A rename with hunks whose rows look like headers, a binary file that is new, and a file that is removed: all three
are read as they were written. -/
theorem parse_written_eq_files_of_moves :
    (∀ change ∈ movedAddedRemoved, ¬ HoldsSide change.old.text) ∧
      parse (String.ofList (written movedAddedRemoved)) = movedAddedRemoved.map Change.file ∧
      movedAddedRemoved.map Change.file =
        [{ filename := "doc b/notes.md", status := .renamed,
           patch := "@@ -1 +1,2 @@\n--- a/my notes.md\n+new file mode\n\\ No newline at end of file\n@@ -9 +10 @@\n \n" },
         { filename := "a.png", status := .added }, { filename := "a.txt", status := .removed }] := by
  have unmarked : ∀ change ∈ movedAddedRemoved, ¬ HoldsSide change.old.text := by decide +kernel
  exact ⟨unmarked, parse_written_eq_files movedAddedRemoved unmarked, by decide +kernel⟩

/-- The name of a file that keeps it is read as it is exactly if it holds no space with the mark of a side behind it. -/
theorem kept_names_read_iff (changes : List Change) (kept : ∀ change ∈ changes, change.new = change.old) :
    List.Forall₂ (fun change file =>
        file.filename = String.ofList change.old.text ↔ ¬ HoldsSide change.old.text)
      changes (parse (String.ofList (written changes))) := by
  rw [parse_written, List.forall₂_map_right_iff, List.forall₂_same]
  exact fun change member => change.filename_part_iff (kept change member)

/-- A change of a file whose directory ends in the mark of a side. -/
def markedDirectoryChange : Change where
  old := ⟨"plan b/notes.md".toList, by decide, by decide, by decide⟩
  event := .modified
  before := []
  after := [⟨.index, ⟨"12..34 100644".toList, by decide⟩⟩]
  content := .hunks ⟨⟨" -1 +1 @@".toList, by decide⟩, [(.removed, ⟨"a".toList, by decide⟩)]⟩ []

/-- A change of a file with spaces in its name that is gone. -/
def spacedNameRemoval : Change where
  old := ⟨"my notes b.md".toList, by decide, by decide, by decide⟩
  event := .removed ⟨"100644".toList, by decide⟩
  before := []
  after := []
  content := .nothing

/-- A directory that ends in the mark of a side makes the difference. Spaces alone do not. -/
theorem kept_names_read_iff_of_spaces :
    (∀ change ∈ [markedDirectoryChange, spacedNameRemoval], change.new = change.old) ∧
      HoldsSide markedDirectoryChange.old.text ∧ ¬ HoldsSide spacedNameRemoval.old.text ∧
      List.Forall₂ (fun change file =>
          file.filename = String.ofList change.old.text ↔ ¬ HoldsSide change.old.text)
        [markedDirectoryChange, spacedNameRemoval]
        (parse (String.ofList (written [markedDirectoryChange, spacedNameRemoval]))) := by
  have kept : ∀ change ∈ [markedDirectoryChange, spacedNameRemoval], change.new = change.old := by
    intro change member
    rcases List.mem_cons.mp member with rfl | member
    · rfl
    · obtain rfl := List.mem_singleton.mp member
      rfl
  exact ⟨kept, by decide, by decide, kept_names_read_iff [markedDirectoryChange, spacedNameRemoval] kept⟩

/-- The section of a changed file is read with another name where the path of the file holds a mark. -/
theorem marked_name_lost :
    markedDirectoryChange.old.text = "plan b/notes.md".toList ∧ markedDirectoryChange.event = .modified ∧
      (parse (String.ofList (written [markedDirectoryChange]))).map (·.filename) = ["notes.md b/plan b/notes.md"] :=
  ⟨rfl, rfl, by decide +kernel⟩

end ReviewContext.Diff
