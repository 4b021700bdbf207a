import ReviewContext.Proofs.Diff.Reading
import ReviewContext.Proofs.Diff.Sections
import ReviewContext.Proofs.Text.Utf8

/-! # Names in quotes

A path with a byte that is no printable ASCII character, a quote or a backslash stands in a header in quotes, the mark
of its side within them and such bytes escaped. These quotes are not taken off again: the name that is read of such a
file is never its path, and without a space in the path it is what stands in the quotes, with them. So the name of a
file that keeps it is read as it is exactly if it needs no quotes and holds no mark of a side behind a space.
-/

namespace ReviewContext.Diff

open Text

/-! ## What stands in a header -/

/-- Whether a byte of a path stands for itself. -/
def isPlain (b : UInt8) : Bool :=
  0x20 ≤ b && b ≤ 0x7E && b != 0x22 && b != 0x5C

/-- The bytes that are escaped by a letter. -/
def escapeLetters : List (UInt8 × Char) :=
  [(7, 'a'), (8, 'b'), (9, 't'), (10, 'n'), (11, 'v'), (12, 'f'), (13, 'r'), (0x22, '"'), (0x5C, '\\')]

/-- A byte of a path within quotes; one without a letter is escaped by three octal digits. -/
def escaped (b : UInt8) : List Char :=
  if isPlain b then [Char.ofNat b.toNat]
  else
    match escapeLetters.lookup b with
    | some letter => ['\\', letter]
    | none => '\\' :: [b / 64, b / 8 % 8, b % 8].map fun digit => Nat.digitChar digit.toNat

/-- A path as it stands between quotes, byte by byte. -/
def escapedPath (path : List Char) : List Char :=
  (Utf8.encode path).flatMap escaped

/-- Whether a path stands in quotes. -/
def NeedsQuotes (path : List Char) : Prop :=
  ∃ b ∈ Utf8.encode path, isPlain b = false

instance (path : List Char) : Decidable (NeedsQuotes path) :=
  List.decidableBEx _ _

/-- A path in quotes with the mark of its side. -/
def quotedSide (mark : Char) (path : List Char) : List Char :=
  '"' :: mark :: '/' :: escapedPath path ++ ['"']

/-- A path with the mark of its side, in quotes where it needs them. -/
def printedSide (mark : Char) (path : List Char) : List Char :=
  if NeedsQuotes path then quotedSide mark path else mark :: '/' :: path

/-- The first line of the section of a file that keeps its name. -/
def printedHeader (path : List Char) : List Char :=
  sectionMark ++ (printedSide 'a' path ++ ' ' :: printedSide 'b' path)

/-! ## Escaped paths -/

section Escaped

private theorem escaped_nonempty (b : UInt8) : 1 ≤ (escaped b).length := by
  unfold escaped
  split
  · exact Nat.le_refl 1
  · split <;> simp

private theorem escaped_inLine (b : UInt8) : '\n' ∉ escaped b ∧ '\r' ∉ escaped b :=
  Utf8.forall_byte (p := fun b => '\n' ∉ escaped b ∧ '\r' ∉ escaped b) (by decide +kernel) b

private theorem count_space_escaped (b : UInt8) : (escaped b).count ' ' = if b = 0x20 then 1 else 0 :=
  Utf8.forall_byte (p := fun b => (escaped b).count ' ' = if b = 0x20 then 1 else 0) (by decide +kernel) b

private theorem escapedPath_cons (c : Char) (path : List Char) :
    escapedPath (c :: path) = (String.utf8EncodeChar c).flatMap escaped ++ escapedPath path := by
  rw [escapedPath, escapedPath, Utf8.encode, Utf8.encode, List.flatMap_cons, List.flatMap_append]

private theorem count_space_utf8EncodeChar (c : Char) :
    (String.utf8EncodeChar c).count 0x20 = if c = ' ' then 1 else 0 := by
  have byte (n : Nat) : UInt8.ofNat n = 0x20 ↔ n % 256 = 32 := by
    rw [← UInt8.toNat_inj]
    rfl
  have space : c = ' ' ↔ c.val.toNat = 32 := by
    rw [Char.ext_iff, ← UInt32.toNat_inj]
    rfl
  unfold String.utf8EncodeChar
  split_ifs <;> grind

private theorem count_space_encode (path : List Char) : (Utf8.encode path).count 0x20 = path.count ' ' := by
  induction path with
  | nil => rfl
  | cons c path ih =>
    rw [Utf8.encode, List.flatMap_cons, List.count_append, ← Utf8.encode, ih, count_space_utf8EncodeChar,
      List.count_cons, Nat.add_comm]
    simp

/-- No space is escaped, and none is added. -/
theorem count_space_escapedPath (path : List Char) : (escapedPath path).count ' ' = path.count ' ' := by
  have each (bytes : List UInt8) : (bytes.flatMap escaped).count ' ' = bytes.count 0x20 := by
    induction bytes with
    | nil => rfl
    | cons b bytes ih =>
      rw [List.flatMap_cons, List.count_append, ih, count_space_escaped, List.count_cons, Nat.add_comm]
      simp
  rw [escapedPath, each, count_space_encode]

private theorem length_le_escapedPath (path : List Char) : path.length ≤ (escapedPath path).length := by
  induction path with
  | nil => exact Nat.le_refl 0
  | cons c path ih =>
    have bytes : 1 ≤ (String.utf8EncodeChar c).length := by
      rw [String.length_utf8EncodeChar]
      exact c.utf8Size_pos
    obtain ⟨b, more, first⟩ := List.exists_cons_of_length_pos bytes
    have some := escaped_nonempty b
    rw [escapedPath_cons, first, List.flatMap_cons]
    simp only [List.length_append, List.length_cons]
    omega

private theorem escapedPath_inLine (path : List Char) : '\n' ∉ escapedPath path ∧ '\r' ∉ escapedPath path := by
  simp only [escapedPath, List.mem_flatMap, not_exists, not_and]
  exact ⟨fun b _ => (escaped_inLine b).1, fun b _ => (escaped_inLine b).2⟩

end Escaped

/-! ## Where a header with quotes is cut -/

section Cut

variable {old new : List Char}

private theorem not_holdsSide_nil : ¬ HoldsSide [] := by decide

private theorem holdsSide_cons_solid {c : Char} (solid : c ≠ ' ') (cs : List Char) :
    HoldsSide (c :: cs) ↔ HoldsSide cs := by
  rw [holdsSide_cons]
  exact ⟨fun holds => holds.resolve_left fun space => solid space.1, .inr⟩

/-- A text holds a mark if a part of it does that a space ends, or if one stands behind the space. -/
theorem holdsSide_append (old new : List Char) :
    HoldsSide (old ++ ' ' :: new) ↔ HoldsSide old ∨ startsSide new = true ∨ HoldsSide new := by
  induction old with
  | nil => simp [holdsSide_cons, not_holdsSide_nil]
  | cons c old ih =>
    have starts : startsSide (old ++ ' ' :: new) = true ↔ startsSide old = true :=
      ⟨startsSide_of_space, fun starts => startsSide_append starts _⟩
    rw [List.cons_append, holdsSide_cons, holdsSide_cons, ih, starts, or_assoc]

private theorem cutAtSide?_eq_none (unmarked : ¬ HoldsSide old) : cutAtSide? old = none := by
  induction old with
  | nil => rfl
  | cons c old ih =>
    rw [holdsSide_cons, not_or] at unmarked
    have inside : ¬ (c = ' ' && startsSide old) = true := by simpa using unmarked.1
    rw [cutAtSide?_cons, if_neg inside, ih unmarked.2]
    rfl

/-- Without a mark the first space parts the paths of a header. -/
theorem cutHeader_of_unmarked {c : Char} (unmarked : ¬ HoldsSide (old ++ ' ' :: new)) (solid : ' ' ∉ c :: old) :
    cutHeader (c :: (old ++ ' ' :: new)) = (c :: old, new) := by
  have inside : ∀ d ∈ c :: old, (d != ' ') = true := by
    intro d member
    rw [bne_iff_ne]
    rintro rfl
    exact solid member
  rw [cutHeader, cutAtSide?_eq_none unmarked]
  change ((c :: old ++ ' ' :: new).takeWhile (· != ' '), ((c :: old ++ ' ' :: new).dropWhile (· != ' ')).drop 1) = _
  rw [List.takeWhile_append_of_pos inside, List.dropWhile_append_of_pos inside]
  simp

/-- A header whose second side starts with no mark, and holds none that the first does not hold, is cut between the
sides or at a space of the first. -/
theorem exists_cutHeader {c : Char} (solid : c ≠ ' ') (plain : startsSide new = false)
    (within : HoldsSide new → HoldsSide old) : ∃ first second,
    cutHeader (c :: (old ++ ' ' :: new)) = (first, second) ∧
      (first = c :: old ∧ second = new ∨
        ∃ back, c :: old = first ++ ' ' :: back ∧ second = back ++ ' ' :: new) := by
  by_cases marked : HoldsSide old
  · obtain ⟨front, back, rfl, -, cut⟩ := exists_cutAtSide? marked
    refine ⟨c :: front, back ++ ' ' :: new, ?_, .inr ⟨back, rfl, rfl⟩⟩
    rw [cutHeader, cut]
    rfl
  · have unmarked : ¬ HoldsSide (old ++ ' ' :: new) := by
      rw [holdsSide_append, plain]
      rintro (holds | starts | holds)
      · exact marked holds
      · cases starts
      · exact marked (within holds)
    by_cases space : ' ' ∈ old
    · obtain ⟨front, back, rfl, before⟩ := List.eq_append_cons_of_mem space
      have parted : front ++ ' ' :: back ++ ' ' :: new = front ++ ' ' :: (back ++ ' ' :: new) := by simp
      rw [parted] at unmarked ⊢
      refine ⟨c :: front, back ++ ' ' :: new, cutHeader_of_unmarked unmarked ?_, .inr ⟨back, rfl, rfl⟩⟩
      rw [List.mem_cons]
      exact not_or.mpr ⟨Ne.symm solid, before⟩
    · refine ⟨c :: old, new, cutHeader_of_unmarked unmarked ?_, .inl ⟨rfl, rfl⟩⟩
      rw [List.mem_cons]
      exact not_or.mpr ⟨Ne.symm solid, space⟩

end Cut

/-! ## The names that are read -/

section Names

variable {path : List Char}

private theorem withoutSide_suffix (path : List Char) : withoutSide path <:+ path := by
  unfold withoutSide
  split
  · exact List.drop_suffix 2 path
  · exact List.suffix_rfl

private theorem length_withoutSide (path : List Char) : path.length ≤ (withoutSide path).length + 2 := by
  unfold withoutSide
  split
  · rw [List.length_drop]
    omega
  · omega

private theorem length_quotedSide (mark : Char) (path : List Char) :
    (quotedSide mark path).length = (escapedPath path).length + 4 := by
  simp [quotedSide]

/-- A header with quotes is cut between the sides, or at a space of the path in the first side. -/
theorem cutHeader_quoted (path : List Char) : ∃ first second,
    cutHeader (quotedSide 'a' path ++ ' ' :: quotedSide 'b' path) = (first, second) ∧
      (first = quotedSide 'a' path ∧ second = quotedSide 'b' path ∨
        ∃ back, quotedSide 'a' path = first ++ ' ' :: back ∧ second = back ++ ' ' :: quotedSide 'b' path) := by
  apply exists_cutHeader (by decide) rfl
  intro holds
  have inner : HoldsSide (escapedPath path ++ ['"']) := by simpa [quotedSide, holdsSide_cons_solid] using holds
  change HoldsSide ('a' :: '/' :: (escapedPath path ++ ['"']))
  rwa [holdsSide_cons_solid (by decide), holdsSide_cons_solid (by decide)]

private theorem count_space_quotedSide {mark : Char} (solid : mark ≠ ' ') (path : List Char) :
    (quotedSide mark path).count ' ' = path.count ' ' := by
  have signs : ['"', mark, '/'].count ' ' = 0 := by simp [solid]
  change (['"', mark, '/'] ++ (escapedPath path ++ ['"'])).count ' ' = _
  rw [List.count_append, List.count_append, signs, count_space_escapedPath, Nat.zero_add]
  rfl

/-- Neither side of a header with quotes is read as the path: what is cut off in front has fewer spaces, and every
other side is longer. -/
theorem paths_quoted_ne (path : List Char) :
    (paths (quotedSide 'a' path ++ ' ' :: quotedSide 'b' path)).1 ≠ path ∧
      (paths (quotedSide 'a' path ++ ' ' :: quotedSide 'b' path)).2 ≠ path := by
  have escapes := length_le_escapedPath path
  have quoted (mark : Char) := length_quotedSide mark path
  have longer {side : List Char} (long : path.length + 2 < side.length) : withoutSide side ≠ path := by
    intro same
    have shortened := length_withoutSide side
    rw [same] at shortened
    omega
  obtain ⟨first, second, cut, between⟩ := cutHeader_quoted path
  simp only [paths, cut]
  rcases between with ⟨rfl, rfl⟩ | ⟨back, whole, rfl⟩
  · exact ⟨longer (by rw [quoted]; omega), longer (by rw [quoted]; omega)⟩
  · refine ⟨fun same => ?_, longer ?_⟩
    · have spaces := congrArg (List.count ' ') whole
      rw [count_space_quotedSide (by decide), List.count_append, List.count_cons_self] at spaces
      have fewer := (withoutSide_suffix first).sublist.count_le ' '
      rw [same] at fewer
      omega
    · rw [List.length_append, List.length_cons, quoted]
      omega

/-- The sides are read as they stand if there is no space in the path. -/
theorem paths_quoted (solid : ' ' ∉ path) :
    paths (quotedSide 'a' path ++ ' ' :: quotedSide 'b' path) = (quotedSide 'a' path, quotedSide 'b' path) := by
  obtain ⟨first, second, cut, ⟨rfl, rfl⟩ | ⟨back, whole, -⟩⟩ := cutHeader_quoted path
  · rw [paths, cut]
    rfl
  · have spaces := congrArg (List.count ' ') whole
    rw [count_space_quotedSide (by decide), List.count_eq_zero.mpr solid, List.count_append,
      List.count_cons_self] at spaces
    omega

/-- A path without quotes around it has no line ends. -/
theorem inLine_of_plain (plain : ¬ NeedsQuotes path) : '\n' ∉ path ∧ '\r' ∉ path := by
  have stands {c : Char} (member : c ∈ path) : ∀ b ∈ String.utf8EncodeChar c, isPlain b = true := by
    intro b inside
    cases shown : isPlain b with
    | true => rfl
    | false => exact absurd ⟨b, List.mem_flatMap.mpr ⟨c, member, inside⟩, shown⟩ plain
  refine ⟨fun member => ?_, fun member => ?_⟩
  · exact absurd (stands member 10 (by decide)) (by decide)
  · exact absurd (stands member 13 (by decide)) (by decide)

private theorem printedSide_inLine {mark : Char} (inLine : mark ≠ '\n' ∧ mark ≠ '\r') (path : List Char) :
    '\n' ∉ printedSide mark path ∧ '\r' ∉ printedSide mark path := by
  unfold printedSide
  split
  · have inside := escapedPath_inLine path
    simp [quotedSide, inLine.1.symm, inLine.2.symm, inside]
  · next plain =>
    have inside := inLine_of_plain plain
    simp [inLine.1.symm, inLine.2.symm, inside]

private theorem printedHeader_isLine (path : List Char) : IsLine (printedHeader path) := by
  have first := printedSide_inLine (show 'a' ≠ '\n' ∧ 'a' ≠ '\r' by decide) path
  have second := printedSide_inLine (show 'b' ≠ '\n' ∧ 'b' ≠ '\r' by decide) path
  have mark : '\n' ∉ sectionMark ∧ '\r' ∉ sectionMark := by decide
  have inLine : '\n' ∉ printedHeader path := by simp [printedHeader, first, second, mark]
  have noReturn : '\r' ∉ printedHeader path := by simp [printedHeader, first, second, mark]
  exact ⟨inLine, fun last => noReturn (List.mem_of_getLast? last)⟩

end Names

/-! ## The record of a section -/

/-- A header with lines behind it that start no section is one section. -/
theorem parse_section {names : List Char} (isLine : IsLine (sectionMark ++ names)) {body : List Char}
    (within : ∀ line ∈ lines body, startsSection line = false) :
    parse (String.ofList (sectionMark ++ names ++ '\n' :: body)) =
      [(FileSection.mk names (lines body)).toChangedFile] := by
  have header : sectionMark.isPrefixOf? (sectionMark ++ names) = some names :=
    List.isPrefixOf?_eq_some_iff_append_eq.mpr rfl
  have rest := sections_body (fun line member => isPrefixOf?_of_not_startsSection (within line member)) []
  rw [List.append_nil] at rest
  have kept : withoutReturn (sectionMark ++ names) = sectionMark ++ names := if_neg isLine.2
  rw [parse, String.toList_ofList, lines_ended_cons isLine.1, kept, sections_cons, header]
  change [(FileSection.mk names (sections (lines body)).1).toChangedFile] ++
    (sections (lines body)).2.map FileSection.toChangedFile = _
  rw [rest]
  change [(FileSection.mk names (lines body ++ [])).toChangedFile] = _
  rw [List.append_nil]

private theorem filename_part (part : FileSection) : part.toChangedFile.filename =
    String.ofList (if part.status = .removed then (paths part.header).1 else (paths part.header).2) :=
  rfl

private theorem printedSides_of_plain {path : List Char} (plain : ¬ NeedsQuotes path) :
    printedSide 'a' path ++ ' ' :: printedSide 'b' path = "a/".toList ++ path ++ " b/".toList ++ path := by
  rw [printedSide, printedSide, if_neg plain, if_neg plain]
  simp

/-- The name of a file that keeps it is read as it is exactly if it stands without quotes and holds no space with the
mark of a side behind it. A name in quotes that has no space is read with the quotes, the mark and the escapes. -/
theorem printed_names_read_iff (path : List Char) {body : List Char}
    (within : ∀ line ∈ lines body, startsSection line = false) :
    ∃ file, parse (String.ofList (printedHeader path ++ '\n' :: body)) = [file] ∧
      (file.filename = String.ofList path ↔ ¬ NeedsQuotes path ∧ ¬ HoldsSide path) ∧
      (NeedsQuotes path → ' ' ∉ path →
        file.filename = String.ofList (quotedSide (if file.status = .removed then 'a' else 'b') path)) := by
  refine ⟨_, parse_section (printedHeader_isLine path) within, ?_⟩
  rw [filename_part, String.ofList_inj, String.ofList_inj]
  by_cases quotes : NeedsQuotes path
  · rw [printedSide, printedSide, if_pos quotes, if_pos quotes]
    obtain ⟨older, newer⟩ := paths_quoted_ne path
    refine ⟨⟨fun same => ?_, fun plain => absurd quotes plain.1⟩, fun _ solid => ?_⟩
    · split at same
      · exact absurd same older
      · exact absurd same newer
    · rw [paths_quoted solid]
      change _ = quotedSide (if FileSection.status _ = .removed then 'a' else 'b') path
      split <;> rfl
  · rw [printedSides_of_plain quotes]
    refine ⟨?_, fun needed => absurd needed quotes⟩
    by_cases marked : HoldsSide path
    · obtain ⟨older, newer⟩ := paths_ne_of_marked marked
      refine ⟨fun same => ?_, fun plain => absurd marked plain.2⟩
      split at same
      · exact absurd same older
      · exact absurd same newer
    · rw [paths_of_unmarked _ marked]
      simp [quotes, marked]

/-- A path with an accent and quotes in it is printed in quotes, and kept as it is printed. -/
theorem printed_names_read_iff_of_accent :
    let path := "café/\"x\".rs".toList
    let body := "deleted file mode 100644\nindex 12..00\n".toList
    (∀ line ∈ lines body, startsSection line = false) ∧ NeedsQuotes path ∧
      printedHeader path =
        "diff --git \"a/caf\\303\\251/\\\"x\\\".rs\" \"b/caf\\303\\251/\\\"x\\\".rs\"".toList ∧
      ∃ file, parse (String.ofList (printedHeader path ++ '\n' :: body)) = [file] ∧
        file.filename ≠ "café/\"x\".rs" ∧ file.filename = "\"a/caf\\303\\251/\\\"x\\\".rs\"" := by
  intro path body
  have within : ∀ line ∈ lines body, startsSection line = false := by decide +kernel
  have quotes : NeedsQuotes path := by decide +kernel
  have header : printedHeader path =
      "diff --git \"a/caf\\303\\251/\\\"x\\\".rs\" \"b/caf\\303\\251/\\\"x\\\".rs\"".toList := by decide +kernel
  obtain ⟨file, read, whole, asPrinted⟩ := printed_names_read_iff path within
  have removed : (parse (String.ofList (printedHeader path ++ '\n' :: body))).map (·.status) = [.removed] := by
    rw [header]
    decide +kernel
  rw [read] at removed
  have status : file.status = .removed := List.singleton_inj.mp removed
  have name := asPrinted quotes (by decide)
  rw [status] at name
  exact ⟨within, quotes, header, file, read, fun same => (whole.mp same).1 quotes, name⟩

/-- A name that stands in quotes in a header is read with the quotes around it. -/
theorem quoted_name_lost :
    NeedsQuotes "é.txt".toList ∧
      printedHeader "é.txt".toList = "diff --git \"a/\\303\\251.txt\" \"b/\\303\\251.txt\"".toList ∧
      (parse (String.ofList (printedHeader "é.txt".toList) ++ "\nindex 12..34 100644\n@@ -1 +1 @@\n-a\n+b\n")).map
        (·.filename) = ["\"b/\\303\\251.txt\""] :=
  ⟨by decide +kernel, by decide +kernel, by decide +kernel⟩

end ReviewContext.Diff
