import ReviewContext.Excerpt

/-! # What a cut text tells

A text beyond the limit keeps its first characters and ends in a marker, which can be read back: where the limit
is known, the characters kept and both lengths stand in what is left. The cut is found by counting bytes, and it
falls between two characters whatever their widths are.
-/

namespace ReviewContext.Excerpt

/-- The two lengths that a marker tells, if the text is one. -/
def readMarker? (text : List Char) : Option (Nat × Nat) :=
  let told := text.drop markerStart.length
  let total := Nat.ofDigitChars 10 (told.takeWhile Char.isDigit) 0
  let rest := (told.dropWhile Char.isDigit).drop " to ".toList.length
  let kept := Nat.ofDigitChars 10 (rest.takeWhile Char.isDigit) 0
  if text = marker total kept then some (total, kept) else none

/-- What was kept of a text that was cut at `limit`, and the two lengths in its marker. -/
def parts? (limit : Nat) (text : List Char) : Option (List Char × Nat × Nat) :=
  (readMarker? (text.drop limit)).map fun lengths => (text.take limit, lengths)

/-- The byte at which the character behind the first `limit` starts, if there is one. -/
def cutByte? : Nat → List Char → Option Nat
  | _, [] => none
  | 0, _ :: _ => some 0
  | limit + 1, c :: rest => (cutByte? limit rest).map (c.utf8Size + ·)

variable {limit total kept : Nat} {text : List Char}

/-! ## Markers -/

private theorem toList_toString (n : Nat) : (toString n).toList = Nat.toDigits 10 n := by
  rw [Nat.toString_eq_ofList_toDigits, String.toList_ofList]

theorem isDigit_of_mem_toString {n : Nat} {c : Char} (member : c ∈ (toString n).toList) : c.isDigit = true := by
  rw [toList_toString] at member
  exact Nat.isDigit_of_mem_toDigits (by decide) (by decide) member

private theorem ofDigitChars_toString (n : Nat) : Nat.ofDigitChars 10 (toString n).toList 0 = n := by
  rw [toList_toString]
  exact Nat.ofDigitChars_ten_toDigits

private theorem takeWhile_digits (n : Nat) {rest : List Char} (stops : rest.head?.all (!·.isDigit)) :
    ((toString n).toList ++ rest).takeWhile Char.isDigit = (toString n).toList := by
  rw [List.takeWhile_append_of_pos fun _ member => isDigit_of_mem_toString member]
  cases rest with
  | nil => exact List.append_nil _
  | cons c rest => rw [List.takeWhile_cons_of_neg (by simpa using stops), List.append_nil]

private theorem dropWhile_digits (n : Nat) {rest : List Char} (stops : rest.head?.all (!·.isDigit)) :
    ((toString n).toList ++ rest).dropWhile Char.isDigit = rest := by
  rw [List.dropWhile_append_of_pos fun _ member => isDigit_of_mem_toString member]
  cases rest with
  | nil => rfl
  | cons c rest => exact List.dropWhile_cons_of_neg (by simpa using stops)

/-- A marker is made of what is read from it: its start, a number, a word, a number and its end. -/
theorem marker_eq (total kept : Nat) :
    marker total kept =
      markerStart ++ ((toString total).toList ++ (" to ".toList ++ ((toString kept).toList ++ ' ' :: markerEnd))) := by
  simp only [marker, List.append_assoc, List.singleton_append]

private theorem readMarker?_marker (total kept : Nat) : readMarker? (marker total kept) = some (total, kept) := by
  have told : (marker total kept).drop markerStart.length =
      (toString total).toList ++ (" to ".toList ++ ((toString kept).toList ++ ' ' :: markerEnd)) := by
    rw [marker_eq, List.drop_left]
  have rest : (((marker total kept).drop markerStart.length).dropWhile Char.isDigit).drop " to ".toList.length =
      (toString kept).toList ++ ' ' :: markerEnd := by
    rw [told, dropWhile_digits total rfl, List.drop_left]
  unfold readMarker?
  dsimp only
  rw [rest, told, takeWhile_digits total rfl, takeWhile_digits kept rfl, ofDigitChars_toString,
    ofDigitChars_toString, if_pos rfl]

/-- The reader takes nothing but markers, and of these it reads what they tell. -/
theorem readMarker?_eq_some_iff : readMarker? text = some (total, kept) ↔ text = marker total kept := by
  constructor
  · intro known
    unfold readMarker? at known
    dsimp only at known
    split at known
    · next same =>
      obtain ⟨rfl, rfl⟩ := Prod.mk.inj (Option.some.inj known)
      exact same
    · cases known
  · rintro rfl
    exact readMarker?_marker total kept

private theorem marker_ne_nil (total kept : Nat) : marker total kept ≠ [] := by
  rw [marker_eq]
  exact List.append_ne_nil_of_left_ne_nil (by decide) _

/-- A text that ends in a marker counts as cut. -/
theorem isTruncated_append_marker (front : List Char) (total kept : Nat) :
    isTruncated (front ++ marker total kept) = true := by
  have ends : markerEnd <:+ front ++ marker total kept :=
    (List.suffix_append _ _).trans (List.suffix_append _ _)
  have starts : markerStart <:+: front ++ marker total kept := by
    rw [marker_eq]
    exact (List.prefix_append _ _).isInfix.trans (List.suffix_append _ _).isInfix
  rw [isTruncated, Bool.and_eq_true]
  exact ⟨List.isSuffixOf_iff_suffix.mpr ends, (Text.occursIn_iff_infix _ _).mpr starts⟩

/-! ## Cuts -/

theorem truncate_of_le (fits : text.length ≤ limit) : truncate limit text = text :=
  if_pos fits

private theorem truncate_of_lt (beyond : limit < text.length) :
    truncate limit text = text.take limit ++ marker text.length limit :=
  if_neg (Nat.not_le.mpr beyond)

private theorem length_take_of_lt (beyond : limit < text.length) : (text.take limit).length = limit :=
  List.length_take_of_le (Nat.le_of_lt beyond)

private theorem parts?_truncate (limit : Nat) (text : List Char) :
    parts? limit (truncate limit text) =
      if text.length ≤ limit then none else some (text.take limit, text.length, limit) := by
  split
  · next fits =>
    rw [truncate_of_le fits, parts?, List.drop_of_length_le fits]
    rfl
  · next beyond =>
    have kept := length_take_of_lt (Nat.lt_of_not_le beyond)
    rw [truncate_of_lt (Nat.lt_of_not_le beyond), parts?, List.drop_left' kept, List.take_left' kept,
      readMarker?_eq_some_iff.mpr rfl]
    rfl

private theorem limit_lt_length_truncate_iff : limit < (truncate limit text).length ↔ limit < text.length := by
  by_cases fits : text.length ≤ limit
  · rw [truncate_of_le fits]
  · have beyond := Nat.lt_of_not_le fits
    have marked := List.length_pos_iff.mpr (marker_ne_nil text.length limit)
    rw [truncate_of_lt beyond, List.length_append, length_take_of_lt beyond]
    exact iff_of_true (Nat.lt_add_of_pos_right marked) beyond

/-! ## Bytes -/

private theorem cutByte?_eq_none_iff : cutByte? limit text = none ↔ text.length ≤ limit := by
  induction text generalizing limit with
  | nil => simp [cutByte?]
  | cons c rest ih =>
    cases limit with
    | zero => simp [cutByte?]
    | succ limit => simp [cutByte?, ih]

/-- The cut is behind the bytes of the characters that are kept. -/
theorem cutByte?_eq_some {cut : Nat} (found : cutByte? limit text = some cut) :
    cut = (text.take limit).utf8Encode.size := by
  induction text generalizing limit cut with
  | nil => simp [cutByte?] at found
  | cons c rest ih =>
    cases limit with
    | zero =>
      cases found
      rfl
    | succ limit =>
      obtain ⟨earlier, known, rfl⟩ := Option.map_eq_some_iff.mp found
      rw [ih known, List.take_succ_cons, List.utf8Encode_cons, ByteArray.size_append, List.utf8Encode_singleton,
        List.size_toByteArray, String.length_utf8EncodeChar]

private theorem toByteArray_ofContent (limit : Nat) (content : String) :
    (ofContent limit content).toByteArray = match cutByte? limit content.toList with
      | none => content.toByteArray
      | some cut =>
        content.toByteArray.extract 0 cut ++ (String.ofList (marker content.length limit)).toByteArray := by
  split
  · next fits =>
    rw [ofContent, truncate_of_le (cutByte?_eq_none_iff.mp fits), String.ofList_toList]
  · next cut found =>
    have beyond : limit < content.toList.length := by
      refine Nat.lt_of_not_le fun fits => ?_
      rw [cutByte?_eq_none_iff.mpr fits] at found
      cases found
    have bytes : content.toByteArray =
        (content.toList.take limit).utf8Encode ++ (content.toList.drop limit).utf8Encode := by
      rw [← List.utf8Encode_append, List.take_append_drop, ← String.toByteArray_ofList, String.ofList_toList]
    rw [ofContent, truncate_of_lt beyond, String.toByteArray_ofList, List.utf8Encode_append, bytes,
      ByteArray.extract_append_eq_left (cutByte?_eq_some found), String.toByteArray_ofList, String.length_toList]

/-! ## The law of truncation -/

/-- A text within the limit stays as it is. One beyond it keeps its first characters in front of a marker, from
which they and both lengths can be read again, so that no text that was cut is taken for a whole one. -/
theorem truncation_law (limit : Nat) (content : String) :
    let text := content.toList
    (text.length ≤ limit → truncate limit text = text) ∧
      (limit < text.length → truncate limit text = text.take limit ++ marker text.length limit ∧
        isTruncated (truncate limit text) = true ∧
        ∀ whole : List Char, whole.length ≤ limit → truncate limit text ≠ truncate limit whole) ∧
      parts? limit (truncate limit text) =
        (if text.length ≤ limit then none else some (text.take limit, text.length, limit)) ∧
      (limit < (truncate limit text).length ↔ limit < text.length) ∧
      (ofContent limit content).toByteArray = match cutByte? limit text with
        | none => content.toByteArray
        | some cut =>
          content.toByteArray.extract 0 cut ++ (String.ofList (marker content.length limit)).toByteArray := by
  intro text
  refine ⟨truncate_of_le, fun beyond => ⟨truncate_of_lt beyond, ?_, fun whole fits same => ?_⟩,
    parts?_truncate limit text, limit_lt_length_truncate_iff, toByteArray_ofContent limit content⟩
  · rw [truncate_of_lt beyond]
    exact isTruncated_append_marker _ _ _
  · have longer := limit_lt_length_truncate_iff.mpr beyond
    rw [same, limit_lt_length_truncate_iff] at longer
    exact absurd longer (Nat.not_lt.mpr fits)

/-- Characters of one to four bytes, cut in front of the widest. -/
theorem truncation_law_of_mixed_widths :
    let content := "aé€😀b"
    let text := content.toList
    3 < text.length ∧ cutByte? 3 text = some 6 ∧
      truncate 3 text = "aé€\n[... truncated from 5 to 3 characters ...]".toList ∧
      truncate 3 text = text.take 3 ++ marker text.length 3 ∧ isTruncated (truncate 3 text) = true ∧
      truncate 3 text ≠ truncate 3 "aé€".toList ∧
      parts? 3 (truncate 3 text) = some ("aé€".toList, 5, 3) := by
  intro content text
  obtain ⟨-, cut, parts, -, -⟩ := truncation_law 3 content
  obtain ⟨whole, marked, other⟩ := cut (by decide)
  exact ⟨by decide, by decide, by decide, whole, marked, other "aé€".toList (by decide),
    parts.trans (by decide)⟩

end ReviewContext.Excerpt
