import ReviewContext.Proofs.Text.Rows
import ReviewContext.Proofs.Text.Utf8
import ReviewContext.Web.Url

/-! # Percent decoding

What a server reads out of the parts of a URL. The encoding of a form field is read back as it was. That of a path
keeps what looks like an escape already, so a path is read back only if it holds none.
-/

namespace ReviewContext.Web

/-- The byte that a text starts with, as a percent sign and two hexadecimal digits. -/
def escape? : List Char → Option UInt8
  | '%' :: high :: low :: _ => do
    return UInt8.ofNat (16 * (← Text.hexValue? high) + (← Text.hexValue? low))
  | _ => none

/-- The bytes that an encoded text stands for. A percent sign that starts no escape stands for itself. -/
def percentDecode : List Char → List UInt8
  | '%' :: high :: low :: rest =>
    match escape? ['%', high, low] with
    | some byte => byte :: percentDecode rest
    | none => String.utf8EncodeChar '%' ++ percentDecode (high :: low :: rest)
  | c :: rest => String.utf8EncodeChar c ++ percentDecode rest
  | [] => []

/-- Whether there is an escape somewhere in a text. -/
def holdsEscape : List Char → Bool
  | [] => false
  | c :: rest => (escape? (c :: rest)).isSome || holdsEscape rest

variable {c : Char} {cs rest : List Char} {byte : UInt8}

/-! ## Escapes -/

private theorem escape?_of_ne (noSign : c ≠ '%') (rest : List Char) : escape? (c :: rest) = none := by
  unfold escape?
  split
  · next same => exact absurd (List.cons.inj same).1 noSign
  · rfl

private theorem escape?_percent_append (high low : Char) (rest : List Char) :
    escape? ('%' :: high :: low :: rest) = escape? ['%', high, low] := rfl

private theorem escape?_of_first {high : Char} (noDigit : Text.hexValue? high = none) (rest : List Char) :
    escape? ('%' :: high :: rest) = none := by
  cases rest with
  | nil => rfl
  | cons low rest => simp [escape?, noDigit]

private theorem escape?_of_second {low : Char} (noDigit : Text.hexValue? low = none) (high : Char) (rest : List Char) :
    escape? ('%' :: high :: low :: rest) = none := by
  simp [escape?, noDigit]

/-- A slash is no hexadecimal digit, so no escape goes across it. -/
theorem escape?_append_slash (c : Char) (cs rest : List Char) :
    escape? (c :: cs ++ '/' :: rest) = escape? (c :: cs) := by
  by_cases sign : c = '%'
  · subst sign
    match cs with
    | [] => exact escape?_of_first rfl rest
    | [high] => exact escape?_of_second rfl high rest
    | _ :: _ :: _ => rfl
  · rw [List.cons_append, escape?_of_ne sign, escape?_of_ne sign]

/-- No escape reaches across a slash. -/
theorem holdsEscape_append_slash (cs rest : List Char) :
    holdsEscape (cs ++ '/' :: rest) = (holdsEscape cs || holdsEscape rest) := by
  induction cs with
  | nil => simp [holdsEscape, escape?]
  | cons c cs ih =>
    rw [List.cons_append, holdsEscape, ih, ← List.cons_append, escape?_append_slash, holdsEscape, Bool.or_assoc]

private theorem percentDecode_of_none (plain : escape? (c :: rest) = none) :
    percentDecode (c :: rest) = String.utf8EncodeChar c ++ percentDecode rest := by
  by_cases sign : c = '%'
  · subst sign
    match rest with
    | [] => rfl
    | [_] => rfl
    | high :: low :: more =>
      rw [escape?_percent_append] at plain
      rw [percentDecode, plain]
  · simp [percentDecode, sign]

private theorem percentDecode_of_some {high low : Char} (found : escape? ['%', high, low] = some byte)
    (rest : List Char) :
    percentDecode ('%' :: high :: low :: rest) = byte :: percentDecode rest := by
  rw [percentDecode, found]

/-- A text is read from its start: three characters at an escape, and one everywhere else. -/
theorem escape_induction {motive : List Char → Prop} (nil : motive [])
    (escaped : ∀ high low rest byte, escape? ['%', high, low] = some byte → motive rest →
      motive ('%' :: high :: low :: rest))
    (plain : ∀ c rest, escape? (c :: rest) = none → motive rest → motive (c :: rest)) (cs : List Char) :
    motive cs := by
  induction cs using percentDecode.induct with
  | case1 high low rest byte found ih => exact escaped high low rest byte found ih
  | case2 high low rest none ih => exact plain '%' (high :: low :: rest) none ih
  | case3 c rest other ih =>
    apply plain c rest _ ih
    unfold escape?
    split
    · next high low more same =>
      obtain ⟨rfl, rfl⟩ := List.cons.inj same
      exact (other high low more rfl rfl).elim
    · rfl
  | case4 => exact nil

/-! ## Lengths -/

/-- A text without escapes stands for its own bytes. -/
theorem percentDecode_of_unescaped (plain : holdsEscape cs = false) : percentDecode cs = Utf8.encode cs := by
  induction cs with
  | nil => rfl
  | cons c cs ih =>
    obtain ⟨here, later⟩ := Bool.or_eq_false_iff.mp plain
    rw [percentDecode_of_none (by simpa using here), ih later]
    rfl

/-- An escape takes more characters than it stands for bytes. -/
theorem length_percentDecode_escape {high low : Char} (found : escape? ['%', high, low] = some byte)
    (most : (percentDecode rest).length ≤ (Utf8.encode rest).length) :
    (percentDecode ('%' :: high :: low :: rest)).length < (Utf8.encode ('%' :: high :: low :: rest)).length := by
  have sign : '%'.utf8Size = 1 := rfl
  have digit : 0 < high.utf8Size := high.utf8Size_pos
  rw [percentDecode_of_some found, List.length_cons]
  simp only [Utf8.length_encode_cons]
  omega

/-- Decoding adds no bytes. -/
theorem length_percentDecode_le (cs : List Char) : (percentDecode cs).length ≤ (Utf8.encode cs).length := by
  induction cs using escape_induction with
  | nil => exact Nat.le_refl 0
  | escaped high low rest byte found ih => exact Nat.le_of_lt (length_percentDecode_escape found ih)
  | plain c rest none ih =>
    rw [percentDecode_of_none none, List.length_append, String.length_utf8EncodeChar, Utf8.length_encode_cons]
    exact Nat.add_le_add_left ih _

/-- Each escape takes bytes away. -/
theorem length_percentDecode_lt (escaped : holdsEscape cs = true) :
    (percentDecode cs).length < (Utf8.encode cs).length := by
  induction cs using escape_induction with
  | nil => contradiction
  | escaped high low rest byte found ih => exact length_percentDecode_escape found (length_percentDecode_le rest)
  | plain c rest none ih =>
    rw [holdsEscape, none] at escaped
    rw [percentDecode_of_none none, List.length_append, String.length_utf8EncodeChar, Utf8.length_encode_cons]
    exact Nat.add_lt_add_left (ih escaped) _

/-! ## What is encoded -/

private theorem hexValue?_upperHexDigit : ∀ n < 16, Text.hexValue? (Text.upperHexDigit n) = some n := by decide

private theorem percentDecode_percentByte (byte : UInt8) (rest : List Char) :
    percentDecode (percentByte byte ++ rest) = byte :: percentDecode rest := by
  have small : byte.toNat < 256 := byte.toNat_lt
  have whole : 16 * (byte.toNat / 16) + byte.toNat % 16 = byte.toNat := by omega
  have found : escape? (percentByte byte) = some byte := by
    rw [percentByte, escape?, hexValue?_upperHexDigit _ (by omega), hexValue?_upperHexDigit _ (by omega)]
    show some (UInt8.ofNat (16 * (byte.toNat / 16) + byte.toNat % 16)) = some byte
    rw [whole, UInt8.ofNat_toNat]
  exact percentDecode_of_some found rest

private theorem percentDecode_percentChar (c : Char) (rest : List Char) :
    percentDecode (percentChar c ++ rest) = String.utf8EncodeChar c ++ percentDecode rest := by
  unfold percentChar
  induction String.utf8EncodeChar c with
  | nil => rfl
  | cons byte bytes ih => rw [List.flatMap_cons, List.append_assoc, percentDecode_percentByte, ih, List.cons_append]

private theorem percentEncode_cons (inSet : Char → Bool) (c : Char) (cs : List Char) :
    percentEncode inSet (c :: cs) = (if inSet c then percentChar c else [c]) ++ percentEncode inSet cs := rfl

/-- No digit is encoded in a path. -/
theorem hexValue?_of_inPathSet (coded : inPathSet c = true) : Text.hexValue? c = none := by
  simp only [inPathSet, inFragmentSet, isControlOrBeyond, Bool.or_eq_true, decide_eq_true_eq, List.contains_iff_mem,
    List.mem_cons, List.not_mem_nil, or_false] at coded
  rcases coded with (beyond | mark) | mark
  · simp only [Text.hexValue?, Bool.and_eq_true, decide_eq_true_eq]
    rw [if_neg (by omega), if_neg (by omega), if_neg (by omega)]
  · rcases mark with rfl | rfl | rfl | rfl | rfl <;> rfl
  · rcases mark with rfl | rfl | rfl | rfl <;> rfl

private theorem not_inPathSet_of_escape {high low : Char} (found : escape? ['%', high, low] = some byte) :
    inPathSet high = false ∧ inPathSet low = false := by
  constructor
  · cases coded : inPathSet high with
    | false => rfl
    | true => rw [escape?_of_first (hexValue?_of_inPathSet coded)] at found; contradiction
  · cases coded : inPathSet low with
    | false => rfl
    | true => rw [escape?_of_second (hexValue?_of_inPathSet coded)] at found; contradiction

/-- An encoded path starts as the path does, or with a percent sign. -/
theorem percentEncode_starts (c : Char) (cs : List Char) :
    percentEncode inPathSet (c :: cs) = c :: percentEncode inPathSet cs ∨
      ∃ more, percentEncode inPathSet (c :: cs) = '%' :: more := by
  rw [percentEncode_cons]
  by_cases coded : inPathSet c
  · obtain ⟨byte, bytes, whole, -⟩ := Utf8.exists_first c
    rw [if_pos coded, percentChar, whole]
    exact .inr ⟨_, rfl⟩
  · rw [if_neg coded]
    exact .inl rfl

/-- Encoding makes no escape of what was none. -/
theorem escape?_percentEncode (none : escape? (c :: rest) = none) :
    escape? (c :: percentEncode inPathSet rest) = .none := by
  by_cases sign : c = '%'
  · subst sign
    match rest with
    | [] => rfl
    | high :: rest =>
      obtain kept | ⟨more, starts⟩ := percentEncode_starts high rest
      · rw [kept]
        match rest with
        | [] => rfl
        | low :: rest =>
          obtain kept | ⟨more, starts⟩ := percentEncode_starts low rest
          · rw [kept]
            exact none
          · rw [starts]
            exact escape?_of_second rfl high more
      · rw [starts]
        exact escape?_of_first rfl more
  · exact escape?_of_ne sign _

/-- What is encoded stands for the bytes that it stood for before. -/
theorem percentDecode_percentEncode (cs : List Char) :
    percentDecode (percentEncode inPathSet cs) = percentDecode cs := by
  induction cs using escape_induction with
  | nil => rfl
  | escaped high low rest byte found ih =>
    obtain ⟨first, second⟩ := not_inPathSet_of_escape found
    have sign : inPathSet '%' = false := by decide
    rw [percentDecode_of_some found, ← ih, ← percentDecode_of_some found]
    simp [percentEncode_cons, first, second, sign]
  | plain c rest none ih =>
    rw [percentDecode_of_none none, percentEncode_cons, ← ih]
    by_cases coded : inPathSet c
    · rw [if_pos coded, percentDecode_percentChar]
    · rw [if_neg coded, List.singleton_append, percentDecode_of_none (escape?_percentEncode none)]

/-! ## Forms -/

/-- A name or a value of a form field, as it is read. -/
def formDecode (cs : List Char) : List UInt8 :=
  percentDecode (cs.map fun c => if c = '+' then ' ' else c)

/-- The fields that a query carries, by name and value. -/
def formFields (query : List Char) : List (List UInt8 × List UInt8) :=
  ((Text.splitOn '&' query).filter (!·.isEmpty)).map fun field =>
    (formDecode (field.takeWhile (· != '=')), formDecode ((field.dropWhile (· != '=')).drop 1))

private theorem isFormSafe_of_mem_percentChar {d : Char} (inside : d ∈ percentChar c) :
    d = '%' ∨ isFormSafe d = true := by
  have safe : ∀ n < 16, isFormSafe (Text.upperHexDigit n) = true := by decide
  obtain ⟨byte, -, inside⟩ := List.mem_flatMap.mp inside
  have small : byte.toNat < 256 := byte.toNat_lt
  simp only [percentByte, List.mem_cons, List.not_mem_nil, or_false] at inside
  rcases inside with rfl | rfl | rfl
  · exact .inl rfl
  · exact .inr (safe _ (by omega))
  · exact .inr (safe _ (by omega))

private theorem isFormSafe_of_mem_formEncode {d : Char} (inside : d ∈ formEncode cs) :
    d = '%' ∨ d = '+' ∨ isFormSafe d = true := by
  obtain ⟨c, -, inside⟩ := List.mem_flatMap.mp inside
  split at inside
  · next safe => exact .inr (.inr (List.mem_singleton.mp inside ▸ safe))
  split at inside
  · exact .inr (.inl (List.mem_singleton.mp inside))
  · exact (isFormSafe_of_mem_percentChar inside).imp id .inr

private theorem formDecode_percentChar (c : Char) (rest : List Char) :
    formDecode (percentChar c ++ rest) = String.utf8EncodeChar c ++ formDecode rest := by
  have noPlus : ∀ d ∈ percentChar c, d ≠ '+' := by
    rintro d inside rfl
    exact absurd (isFormSafe_of_mem_percentChar inside) (by decide)
  have kept : (percentChar c).map (fun d => if d = '+' then ' ' else d) = percentChar c := by
    rw [List.map_congr_left fun d inside => if_neg (noPlus d inside), List.map_id']
  rw [formDecode, List.map_append, kept, percentDecode_percentChar, formDecode]

private theorem formDecode_formEncode (cs : List Char) : formDecode (formEncode cs) = Utf8.encode cs := by
  induction cs with
  | nil => rfl
  | cons c cs ih =>
    have read : formDecode (formEncode (c :: cs)) = String.utf8EncodeChar c ++ formDecode (formEncode cs) := by
      rw [formEncode, List.flatMap_cons, ← formEncode]
      split
      · next safe =>
        have noPlus : c ≠ '+' := by rintro rfl; exact absurd safe (by decide)
        have noSign : c ≠ '%' := by rintro rfl; exact absurd safe (by decide)
        rw [formDecode, List.singleton_append, List.map_cons, if_neg noPlus,
          percentDecode_of_none (escape?_of_ne noSign _)]
        rfl
      split
      · next space =>
        subst space
        rfl
      · exact formDecode_percentChar c _
    rw [read, ih]
    rfl

/-- A field is read as it was written. -/
theorem formFields_field (name value : String) :
    formFields (Url.field (name, value)) = [(Utf8.encode name.toList, Utf8.encode value.toList)] := by
  have kept (cs : List Char) (mark : Char) (meaning : mark = '&' ∨ mark = '=') : mark ∉ formEncode cs := by
    intro inside
    rcases meaning with rfl | rfl <;> exact absurd (isFormSafe_of_mem_formEncode inside) (by decide)
  have solid : '&' ∉ Url.field (name, value) := by
    simp [Url.field, kept _ '&' (.inl rfl)]
  have inName : ∀ d ∈ formEncode name.toList, (d != '=') = true := by
    intro d inside
    simpa using ne_of_mem_of_not_mem inside (kept _ '=' (.inr rfl))
  rw [formFields, Text.splitOn_of_solid solid]
  simp [Url.field, List.takeWhile_append_of_pos inName, List.dropWhile_append_of_pos inName, formDecode_formEncode]

end ReviewContext.Web
