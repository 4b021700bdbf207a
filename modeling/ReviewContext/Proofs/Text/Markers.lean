import ReviewContext.Proofs.Text.Truncation

/-! # Which texts count as cut

A text counts as cut if it ends as a marker does and a marker starts in it somewhere. Whether the two belong
together is told by the words between the last start and the end: they make up a marker only if they are two
lengths. A text that quotes a marker and happens to end in the same words counts as cut and is whole.
-/

namespace ReviewContext.Excerpt

/-- What a marker says between its start and its end. -/
def lengths (total kept : Nat) : List Char :=
  (toString total).toList ++ (" to ".toList ++ ((toString kept).toList ++ [' ']))

/-- A whole marker stands at the end of the text. -/
def EndsInMarker (text : List Char) : Prop :=
  ∃ front total kept, text = front ++ marker total kept

/-- A text ends as a marker does, and these are the words in front of that, behind the last start of a marker. -/
def Tells (text told : List Char) : Prop :=
  ¬ markerStart <:+: told ∧ ∃ front, text = front ++ (markerStart ++ (told ++ markerEnd))

variable {text told : List Char}

private theorem marker_eq_lengths (total kept : Nat) :
    marker total kept = markerStart ++ (lengths total kept ++ markerEnd) := by
  simp only [marker, lengths, List.append_assoc]

private theorem newline_not_mem_lengths (total kept : Nat) : '\n' ∉ lengths total kept := by
  have digits (n : Nat) : '\n' ∉ (toString n).toList := fun member =>
    absurd (isDigit_of_mem_toString member) (by decide)
  simp only [lengths, List.mem_append, not_or]
  exact ⟨digits total, by decide, digits kept, by decide⟩

private theorem not_markerStart_lengths (total kept : Nat) : ¬ markerStart <:+: lengths total kept := by
  intro starts
  apply newline_not_mem_lengths total kept
  exact starts.subset List.mem_cons_self

private theorem tells_lengths_iff {total kept : Nat} :
    Tells text (lengths total kept) ↔ ∃ front, text = front ++ marker total kept := by
  rw [Tells, marker_eq_lengths]
  exact and_iff_right (not_markerStart_lengths total kept)

/-! ## The last start -/

/-- A text in which something occurs can be cut behind its last occurrence. -/
theorem exists_last {needle : List Char} (some : needle ≠ []) (occurs : needle <:+: text) :
    ∃ front rest, ¬ needle <:+: rest ∧ text = front ++ (needle ++ rest) := by
  induction text with
  | nil => exact absurd (List.eq_nil_of_infix_nil occurs) some
  | cons c text ih =>
    by_cases later : needle <:+: text
    · obtain ⟨front, rest, last, rfl⟩ := ih later
      exact ⟨c :: front, rest, last, rfl⟩
    · obtain ⟨rest, whole⟩ := (List.infix_cons_iff.mp occurs).resolve_right later
      refine ⟨[], rest, fun again => later ?_, whole.symm⟩
      -- what is behind the needle is behind the first character too
      cases needle with
      | nil => exact absurd rfl some
      | cons d needle =>
        obtain ⟨-, rfl⟩ := List.cons_eq_cons.mp whole
        exact again.trans (List.suffix_append needle rest).isInfix

/-- No end of the start of a marker is a beginning of its end, so the two stand side by side. -/
theorem markerStart_infix_iff {body : List Char} : markerStart <:+: body ++ markerEnd ↔ markerStart <:+: body := by
  have apart : ∀ n < 16, markerEnd.take n <:+ markerStart → n = 0 := by decide
  refine ⟨fun starts => ?_, fun starts => starts.trans (List.prefix_append _ _).isInfix⟩
  rcases List.infix_append_iff.mp starts with inside | inside | ⟨first, second, cut, left, right⟩
  · exact inside
  · exact absurd inside.length_le (by decide)
  · have short : second.length < 16 := Nat.lt_succ_of_le right.length_le
    have ends : markerEnd.take second.length <:+ markerStart := by
      rw [← List.prefix_iff_eq_take.mp right, cut]
      apply List.suffix_append
    rw [List.length_eq_zero_iff.mp (apart _ short ends), List.append_nil] at cut
    rw [cut]
    exact left.isInfix

/-- A marker starts with a newline and holds no other, so that no two starts overlap. -/
theorem eq_of_markerStart {front other : List Char} {rest : List Char} (first : ¬ markerStart <:+: told)
    (same : front ++ (markerStart ++ told) = (front ++ other) ++ (markerStart ++ rest)) : told = rest := by
  rw [List.append_assoc, List.append_right_inj] at same
  rcases List.append_eq_append_iff.mp same with ⟨more, -, behind⟩ | ⟨more, whole, behind⟩
  · refine absurd ?_ first
    rw [behind]
    apply List.infix_append'
  · cases other with
    | nil => exact (List.append_right_inj markerStart).mp same
    | cons c other =>
      have tail : markerStart.tail = other ++ more := by rw [whole]; rfl
      cases more with
      | nil =>
        refine absurd ?_ first
        rw [← List.nil_append told, ← behind]
        exact (List.prefix_append _ _).isInfix
      | cons d more =>
        have newline : d = '\n' := (List.cons_eq_cons.mp behind).1.symm
        have inside : '\n' ∈ markerStart.tail := by simp [tail, newline]
        exact absurd inside (by decide)

private theorem Tells.eq {other : List Char} (tells : Tells text told) (others : Tells text other) : told = other := by
  obtain ⟨last, front, rfl⟩ := tells
  obtain ⟨otherLast, otherFront, same⟩ := others
  simp only [← List.append_assoc, List.append_left_inj] at same
  simp only [List.append_assoc] at same
  rcases List.append_eq_append_iff.mp same with ⟨more, rfl, -⟩ | ⟨more, rfl, -⟩
  · exact eq_of_markerStart last same
  · exact (eq_of_markerStart otherLast same.symm).symm

private theorem isTruncated_iff_tells : isTruncated text = true ↔ ∃ told, Tells text told := by
  rw [isTruncated, Bool.and_eq_true, Text.endsIn, List.isSuffixOf_iff_suffix, Text.occursIn_iff_infix]
  constructor
  · rintro ⟨⟨body, rfl⟩, starts⟩
    obtain ⟨front, told, last, rfl⟩ := exists_last (by decide) (markerStart_infix_iff.mp starts)
    exact ⟨told, last, front, by simp only [List.append_assoc]⟩
  · rintro ⟨told, -, front, rfl⟩
    refine ⟨?_, List.infix_append' _ _ _⟩
    simp only [← List.append_assoc]
    apply List.suffix_append

private theorem endsInMarker_iff_tells : EndsInMarker text ↔ ∃ total kept, Tells text (lengths total kept) := by
  constructor
  · rintro ⟨front, total, kept, marked⟩
    exact ⟨total, kept, tells_lengths_iff.mpr ⟨front, marked⟩⟩
  · rintro ⟨total, kept, tells⟩
    obtain ⟨front, marked⟩ := tells_lengths_iff.mp tells
    exact ⟨front, total, kept, marked⟩

private theorem Tells.endsInMarker_iff (tells : Tells text told) :
    EndsInMarker text ↔ ∃ total kept, told = lengths total kept := by
  rw [endsInMarker_iff_tells]
  constructor
  · rintro ⟨total, kept, others⟩
    exact ⟨total, kept, tells.eq others⟩
  · rintro ⟨total, kept, rfl⟩
    exact ⟨total, kept, tells⟩

/-! ## Cut texts and those that look like one -/

/-- Every text that ends in a marker counts as cut. One that counts as cut ends in a marker exactly if nothing but
two lengths stands between the last start of a marker and the end. -/
theorem counts_as_cut_iff (text : List Char) :
    (EndsInMarker text → isTruncated text = true) ∧
      (isTruncated text = true ↔ ∃ told, Tells text told) ∧
      (EndsInMarker text ↔ ∃ total kept, Tells text (lengths total kept)) ∧
      ((isTruncated text = true ↔ EndsInMarker text) ↔
        ∀ told, Tells text told → ∃ total kept, told = lengths total kept) := by
  refine ⟨?_, isTruncated_iff_tells, endsInMarker_iff_tells, fun agree told tells => ?_, fun each => ⟨?_, ?_⟩⟩
  · rintro ⟨front, total, kept, rfl⟩
    exact isTruncated_append_marker front total kept
  · apply tells.endsInMarker_iff.mp
    exact agree.mp (isTruncated_iff_tells.mpr ⟨told, tells⟩)
  · intro counts
    obtain ⟨told, tells⟩ := isTruncated_iff_tells.mp counts
    exact tells.endsInMarker_iff.mpr (each told tells)
  · rintro ⟨front, total, kept, rfl⟩
    exact isTruncated_append_marker front total kept

/-- A text that quotes a marker in its middle and ends in the same words, and is nowhere cut. -/
theorem quoted_marker_counts_as_cut :
    let text := "A cut body ends in\n[... truncated from 9 to 4 characters ...]\n[so many characters ...]".toList
    isTruncated text = true ∧ ¬ EndsInMarker text := by
  intro text
  have tells : Tells text "9 to 4 characters ...]\n[so many ".toList := by
    rw [Tells, ← Text.occursIn_iff_infix]
    exact ⟨by decide, "A cut body ends in".toList, by decide⟩
  refine ⟨by decide, fun marked => ?_⟩
  obtain ⟨total, kept, same⟩ := tells.endsInMarker_iff.mp marked
  apply newline_not_mem_lengths total kept
  rw [← same]
  decide

end ReviewContext.Excerpt
