import ReviewContext.Text.Utf8

/-! # What is encoded is decoded

Every reader of bytes reads the encoding of a text back, character by character, and the strict one reads nothing
else: a character comes only of the bytes that encode it, since the first byte leaves open just enough for the second.
-/

namespace ReviewContext.Utf8

variable {n : Nat}

theorem toNat_ofNat_of_lt (small : n < 256) : (UInt8.ofNat n).toNat = n := by
  rw [UInt8.toNat_ofNat', Nat.mod_eq_of_lt small]

private theorem not_lt_of_le (small : n < 256) (beyond : 0x80 ≤ n) : ¬ UInt8.ofNat n < 0x80 := by
  rw [UInt8.lt_iff_toNat_lt, toNat_ofNat_of_lt small]
  exact Nat.not_lt.mpr beyond

/-- The last six bits of a number, as a byte that is not the first. -/
def tail (n : Nat) : UInt8 :=
  UInt8.ofNat (n % 64 + 128)

private theorem toNat_tail (n : Nat) : (tail n).toNat = n % 64 + 128 :=
  toNat_ofNat_of_lt (by omega)

private theorem isTail_tail (n : Nat) : isTail (tail n) = true := by
  simp only [isTail, UInt8.le_iff_toNat_le, toNat_tail, Bool.and_eq_true, decide_eq_true_eq]
  exact ⟨Nat.le_add_left 128 (n % 64), by show n % 64 + 128 ≤ 191; omega⟩

private theorem within_tail {low high : UInt8} (least : low.toNat ≤ n % 64 + 128) (most : n % 64 + 128 ≤ high.toNat) :
    (!(decide (low ≤ tail n) && decide (tail n ≤ high))) = false := by
  simp [UInt8.le_iff_toNat_le, toNat_tail, least, most]

/-! ## First bytes -/

private theorem lead?_two : ∀ n < 32, 2 ≤ n → lead? (UInt8.ofNat (n + 192)) = some (0x80, 0xBF, 0) := by decide

/-- The second byte keeps away from what two bytes can say, and from the halves of surrogate pairs. -/
theorem lead?_three : ∀ n < 16, lead? (UInt8.ofNat (n + 224)) =
    some (if n = 0 then 0xA0 else 0x80, if n = 13 then 0x9F else 0xBF, 1) := by decide

/-- The second byte keeps away from what three bytes can say, and from what is beyond the last character. -/
theorem lead?_four : ∀ n < 5, lead? (UInt8.ofNat (n + 240)) =
    some (if n = 0 then 0x90 else 0x80, if n = 4 then 0x8F else 0xBF, 2) := by decide

private theorem first_one (small : n ≤ 0x7F) (rest : List UInt8) :
    first (UInt8.ofNat n) rest = (.char (Char.ofNat n), 0) := by
  have byte : (UInt8.ofNat n).toNat = n := toNat_ofNat_of_lt (by omega)
  have ascii : UInt8.ofNat n < 0x80 := by
    rw [UInt8.lt_iff_toNat_lt, byte]
    exact Nat.lt_succ_of_le small
  unfold first
  rw [if_pos ascii, byte]

private theorem first_two (low : 0x7F < n) (high : n ≤ 0x7FF) (rest : List UInt8) :
    first (UInt8.ofNat (n / 64 % 32 + 192)) (tail n :: rest) = (.char (Char.ofNat n), 1) := by
  have value : (n / 64 % 32 + 192 - 0xC0) * 64 + (n % 64 + 128 - 0x80) = n := by omega
  unfold first
  rw [if_neg (not_lt_of_le (by omega) (by omega)), lead?_two _ (by omega) (by omega)]
  dsimp only
  rw [if_neg (by rw [within_tail (Nat.le_add_left _ _) (by show _ ≤ 191; omega)]; decide), char2, toNat_tail,
    toNat_ofNat_of_lt (by omega), value]

private theorem first_three (low : 0x7FF < n) (high : n ≤ 0xFFFF) (noHalf : n < 0xD800 ∨ 0xDFFF < n)
    (rest : List UInt8) :
    first (UInt8.ofNat (n / 4096 % 16 + 224)) (tail (n / 64) :: tail n :: rest) = (.char (Char.ofNat n), 2) := by
  have value : ((n / 4096 % 16 + 224 - 0xE0) * 64 + (n / 64 % 64 + 128 - 0x80)) * 64 + (n % 64 + 128 - 0x80) = n := by
    omega
  unfold first
  rw [if_neg (not_lt_of_le (by omega) (by omega)), lead?_three _ (by omega)]
  dsimp only
  have inRange : (!(decide ((if n / 4096 % 16 = 0 then (0xA0 : UInt8) else 0x80) ≤ tail (n / 64)) &&
      decide (tail (n / 64) ≤ if n / 4096 % 16 = 13 then (0x9F : UInt8) else 0xBF))) = false := by
    apply within_tail
    · split
      · show 0xA0 ≤ _
        omega
      · exact Nat.le_add_left _ _
    · split
      · show _ ≤ 0x9F
        omega
      · show _ ≤ 0xBF
        omega
  rw [if_neg (by rw [inRange]; decide), isTail_tail, if_neg (by decide)]
  change (Piece.char (char3 _ _ _), 2) = _
  rw [char3, toNat_tail, toNat_tail, toNat_ofNat_of_lt (by omega), value]

private theorem first_four (low : 0xFFFF < n) (high : n < 0x110000) (rest : List UInt8) :
    first (UInt8.ofNat (n / 262144 % 8 + 240)) (tail (n / 4096) :: tail (n / 64) :: tail n :: rest) =
      (.char (Char.ofNat n), 3) := by
  have value : (((n / 262144 % 8 + 240 - 0xF0) * 64 + (n / 4096 % 64 + 128 - 0x80)) * 64 +
      (n / 64 % 64 + 128 - 0x80)) * 64 + (n % 64 + 128 - 0x80) = n := by
    omega
  unfold first
  rw [if_neg (not_lt_of_le (by omega) (by omega)), lead?_four _ (by omega)]
  dsimp only
  have inRange : (!(decide ((if n / 262144 % 8 = 0 then (0x90 : UInt8) else 0x80) ≤ tail (n / 4096)) &&
      decide (tail (n / 4096) ≤ if n / 262144 % 8 = 4 then (0x8F : UInt8) else 0xBF))) = false := by
    apply within_tail
    · split
      · show 0x90 ≤ _
        omega
      · exact Nat.le_add_left _ _
    · split
      · show _ ≤ 0x8F
        omega
      · show _ ≤ 0xBF
        omega
  rw [if_neg (by rw [inRange]; decide), isTail_tail, if_neg (by decide)]
  change (if isTail _ = true then (Piece.char (char4 _ _ _ _), 3) else _) = _
  rw [isTail_tail, if_pos rfl, char4, toNat_tail, toNat_tail, toNat_tail, toNat_ofNat_of_lt (by omega), value]

/-! ## Texts -/

/-- The bytes of a character are read as that character, whatever follows them. -/
theorem exists_first (c : Char) :
    ∃ a more, String.utf8EncodeChar c = a :: more ∧ ∀ rest, first a (more ++ rest) = (.char c, more.length) := by
  have number : Char.ofNat c.val.toNat = c := Char.ofNat_toNat c
  have valid : c.val.toNat < 0xD800 ∨ 0xDFFF < c.val.toNat ∧ c.val.toNat < 0x110000 := c.valid
  unfold String.utf8EncodeChar
  dsimp only
  split
  · next small => exact ⟨_, [], rfl, fun rest => by rw [List.nil_append, first_one small, number]; rfl⟩
  split
  · next low high => exact ⟨_, [tail _], rfl, fun rest => by
      rw [List.singleton_append, first_two (by omega) high, number]; rfl⟩
  split
  · next _ low high => exact ⟨_, [tail _, tail _], rfl, fun rest => by
      rw [List.cons_append, List.singleton_append, first_three (by omega) high (by omega), number]; rfl⟩
  · next _ _ low => exact ⟨_, [tail _, tail _, tail _], rfl, fun rest => by
      rw [List.cons_append, List.cons_append, List.singleton_append, first_four (by omega) (by omega), number]; rfl⟩

/-- An encoding is as long as its characters are together. -/
theorem length_encode_cons (c : Char) (cs : List Char) :
    (encode (c :: cs)).length = c.utf8Size + (encode cs).length := by
  rw [encode, List.flatMap_cons, List.length_append, String.length_utf8EncodeChar]
  rfl

private theorem piecesFrom_append (skipped rest : List UInt8) :
    piecesFrom skipped.length (skipped ++ rest) = piecesFrom 0 rest := by
  induction skipped with
  | nil => rfl
  | cons byte skipped ih => exact ih

private theorem pieces_encode (cs : List Char) : pieces (encode cs) = cs.map .char := by
  induction cs with
  | nil => rfl
  | cons c cs ih =>
    obtain ⟨a, more, bytes, reads⟩ := exists_first c
    have read := reads (encode cs)
    rw [encode] at ih read
    rw [pieces, encode, List.flatMap_cons, bytes, List.cons_append, piecesFrom, read, List.map_cons]
    dsimp only
    rw [piecesFrom_append]
    exact congrArg _ ih

/-- Decoding gives back what was encoded. -/
theorem decodePartial_encode (cs : List Char) : decodePartial (encode cs) = cs.map some := by
  rw [decodePartial, pieces_encode, List.map_map]
  rfl

/-- Two texts have the same encoding only if they are the same. -/
theorem encode_injective : Function.Injective encode := by
  intro cs others same
  have read := congrArg decodePartial same
  rw [decodePartial_encode, decodePartial_encode] at read
  exact (List.map_inj_right fun _ _ => Option.some.inj).mp read

/-! ## What is decoded was encoded -/

private theorem toNat_val_ofNat (valid : n < 0xD800 ∨ 0xDFFF < n ∧ n < 0x110000) : (Char.ofNat n).val.toNat = n := by
  rw [Char.ofNat, dif_pos valid]
  rfl

theorem ofNat_eq_of_toNat {b : UInt8} (same : b.toNat = n) : UInt8.ofNat n = b := by
  rw [← same, UInt8.ofNat_toNat]

private theorem encodeChar_one (small : n ≤ 0x7F) : String.utf8EncodeChar (Char.ofNat n) = [UInt8.ofNat n] := by
  unfold String.utf8EncodeChar
  dsimp only
  rw [toNat_val_ofNat (by omega), if_pos small]

private theorem encodeChar_two (low : 0x7F < n) (high : n ≤ 0x7FF) :
    String.utf8EncodeChar (Char.ofNat n) = [UInt8.ofNat (n / 64 % 32 + 192), tail n] := by
  unfold String.utf8EncodeChar
  dsimp only
  rw [toNat_val_ofNat (by omega), if_neg (by omega), if_pos high]
  rfl

private theorem encodeChar_three (low : 0x7FF < n) (high : n ≤ 0xFFFF) (noHalf : n < 0xD800 ∨ 0xDFFF < n) :
    String.utf8EncodeChar (Char.ofNat n) = [UInt8.ofNat (n / 4096 % 16 + 224), tail (n / 64), tail n] := by
  unfold String.utf8EncodeChar
  dsimp only
  rw [toNat_val_ofNat (by omega), if_neg (by omega), if_neg (by omega), if_pos high]
  rfl

private theorem encodeChar_four (low : 0xFFFF < n) (high : n < 0x110000) :
    String.utf8EncodeChar (Char.ofNat n) =
      [UInt8.ofNat (n / 262144 % 8 + 240), tail (n / 4096), tail (n / 64), tail n] := by
  unfold String.utf8EncodeChar
  dsimp only
  rw [toNat_val_ofNat (by omega), if_neg (by omega), if_neg (by omega), if_neg (by omega)]
  rfl

/-- What the first byte of a longer character leaves open for the second, by how many bytes follow that. -/
def LeadsTo (first low high : Nat) : Nat → Prop
  | 0 => 0xC2 ≤ first ∧ first ≤ 0xDF ∧ low = 0x80 ∧ high = 0xBF
  | 1 => 0xE0 ≤ first ∧ first ≤ 0xEF ∧ 0x80 ≤ low ∧ high ≤ 0xBF ∧ (first = 0xE0 → low = 0xA0) ∧
    (first = 0xED → high = 0x9F)
  | 2 => 0xF0 ≤ first ∧ first ≤ 0xF4 ∧ 0x80 ≤ low ∧ high ≤ 0xBF ∧ (first = 0xF0 → low = 0x90) ∧
    (first = 0xF4 → high = 0x8F)
  | _ => False

instance (first low high : Nat) : DecidablePred (LeadsTo first low high)
  | 0 => inferInstanceAs (Decidable (_ ∧ _))
  | 1 => inferInstanceAs (Decidable (_ ∧ _))
  | 2 => inferInstanceAs (Decidable (_ ∧ _))
  | _ + 3 => inferInstanceAs (Decidable False)

/-- What holds of the bytes by their numbers can be evaluated. -/
theorem forall_byte {p : UInt8 → Prop} (all : ∀ n < 256, p (UInt8.ofNat n)) (byte : UInt8) : p byte := by
  have this := all byte.toNat byte.toNat_lt
  rwa [UInt8.ofNat_toNat] at this

private theorem leadsTo_of_lead? {a low high : UInt8} {more : Nat} (lead : lead? a = some (low, high, more)) :
    LeadsTo a.toNat low.toNat high.toNat more := by
  have bounds := forall_byte
    (p := fun a => (lead? a).all fun (low, high, more) => LeadsTo a.toNat low.toNat high.toNat more)
    (by decide +kernel) a
  rw [lead] at bounds
  exact of_decide_eq_true bounds

private theorem bounds_of_within {low high b : UInt8} (within : ¬ (!(decide (low ≤ b) && decide (b ≤ high))) = true) :
    low.toNat ≤ b.toNat ∧ b.toNat ≤ high.toNat := by
  simpa [UInt8.le_iff_toNat_le] using within

private theorem bounds_of_isTail {b : UInt8} (tail : isTail b = true) : 0x80 ≤ b.toNat ∧ b.toNat ≤ 0xBF := by
  simpa [isTail, UInt8.le_iff_toNat_le] using tail

/-- A character is read from the bytes that encode it. -/
theorem first_sound (a : UInt8) (rest : List UInt8) :
    match first a rest with
    | (.char c, more) => String.utf8EncodeChar c = a :: rest.take more ∧ more ≤ rest.length
    | (.stray _ _, _) => True := by
  fun_cases first a rest with
  | case1 _ ascii =>
    have small : a.toNat < 0x80 := UInt8.lt_iff_toNat_lt.mp ascii
    dsimp only
    rw [encodeChar_one (by omega), UInt8.ofNat_toNat]
    exact ⟨rfl, Nat.zero_le _⟩
  | case5 _ low high b rest within lead =>
    obtain ⟨least, most, lowest, highest⟩ := leadsTo_of_lead? lead
    obtain ⟨lower, upper⟩ := bounds_of_within within
    dsimp only
    rw [char2, encodeChar_two (by omega) (by omega), ofNat_eq_of_toNat (b := a) (by omega), tail,
      ofNat_eq_of_toNat (b := b) (by omega)]
    exact ⟨rfl, by simp⟩
  | case8 _ low high b within c rest second lead =>
    obtain ⟨least, most, lowest, highest, noOverlong, noHalf⟩ := leadsTo_of_lead? lead
    obtain ⟨lower, upper⟩ := bounds_of_within within
    obtain ⟨low₂, high₂⟩ := bounds_of_isTail (by simpa using second)
    dsimp only
    rw [char3, encodeChar_three (by omega) (by omega) (by omega), ofNat_eq_of_toNat (b := a) (by omega), tail, tail,
      ofNat_eq_of_toNat (b := b) (by omega), ofNat_eq_of_toNat (b := c) (by omega)]
    exact ⟨rfl, by simp⟩
  | case10 _ low high b within more c second d rest third some lead =>
    have bounds := leadsTo_of_lead? lead
    obtain rfl : more = 1 := by
      match more with
      | 0 => exact absurd rfl some
      | 1 => rfl
      | _ + 2 => exact bounds.elim
    obtain ⟨least, most, lowest, highest, noOverlong, noBeyond⟩ := bounds
    obtain ⟨lower, upper⟩ := bounds_of_within within
    obtain ⟨low₂, high₂⟩ := bounds_of_isTail (by simpa using second)
    obtain ⟨low₃, high₃⟩ := bounds_of_isTail third
    dsimp only
    rw [char4, encodeChar_four (by omega) (by omega), ofNat_eq_of_toNat (b := a) (by omega), tail, tail, tail,
      ofNat_eq_of_toNat (b := b) (by omega), ofNat_eq_of_toNat (b := c) (by omega),
      ofNat_eq_of_toNat (b := d) (by omega)]
    exact ⟨rfl, by simp⟩
  | _ => trivial

private theorem eq_encode_of_pieces {bytes : List UInt8} {cs : List Char} (read : pieces bytes = cs.map .char) :
    bytes = encode cs := by
  induction cs generalizing bytes with
  | nil =>
    cases bytes with
    | nil => rfl
    | cons a rest => cases read
  | cons c cs ih =>
    cases bytes with
    | nil => cases read
    | cons a rest =>
      have sound := first_sound a rest
      rw [pieces, piecesFrom, List.map_cons] at read
      generalize first a rest = reading at sound read
      obtain ⟨piece, more⟩ := reading
      obtain ⟨rfl, later⟩ := List.cons.inj read
      obtain ⟨own, within⟩ := sound
      have behind : piecesFrom more rest = pieces (rest.drop more) := by
        have skipped := piecesFrom_append (rest.take more) (rest.drop more)
        rwa [List.take_append_drop, List.length_take_of_le within] at skipped
      rw [behind] at later
      rw [encode, List.flatMap_cons, own, ← encode, ← ih later, List.cons_append, List.take_append_drop]

private theorem charactersFrom_eq_ok_iff {offset : Nat} {found cs : List Char} {row : List Piece} :
    charactersFrom offset found row = .ok cs ↔
      ∃ rest : List Char, row = rest.map .char ∧ cs = found.reverse ++ rest := by
  induction row generalizing offset found with
  | nil => simp [charactersFrom, eq_comm]
  | cons piece row ih =>
    cases piece with
    | char c =>
      rw [charactersFrom, ih]
      constructor
      · rintro ⟨rest, rfl, rfl⟩
        exact ⟨c :: rest, rfl, by rw [List.reverse_cons, List.append_assoc, List.singleton_append]⟩
      · rintro ⟨rest, same, rfl⟩
        obtain ⟨d, rest, rfl, head, rfl⟩ := List.map_eq_cons_iff.mp same.symm
        obtain rfl := Piece.char.inj head
        exact ⟨rest, rfl, by rw [List.reverse_cons, List.append_assoc, List.singleton_append]⟩
    | stray length cut =>
      refine iff_of_false nofun ?_
      rintro ⟨rest, same, -⟩
      obtain ⟨d, rest, rfl, head, -⟩ := List.map_eq_cons_iff.mp same.symm
      cases head

/-- A text is read from its encoding and from no other bytes. -/
theorem decode_eq_ok_iff {bytes : List UInt8} {cs : List Char} : decode bytes = .ok cs ↔ bytes = encode cs := by
  rw [decode, charactersFrom_eq_ok_iff]
  constructor
  · rintro ⟨rest, read, rfl⟩
    exact eq_encode_of_pieces read
  · rintro rfl
    exact ⟨cs, pieces_encode cs, rfl⟩

end ReviewContext.Utf8
