import Mathlib.Data.List.Basic
import ReviewContext.Proofs.Failing
import ReviewContext.Proofs.Text.Utf8
import ReviewContext.Text.Base64

/-! # Base64 that is decoded was encoded

Three bytes are cut into four numbers of six bits, and fewer at the end into as many as they need. A group of such
numbers whose last has no bits to spare comes of exactly one group of bytes, so what the decoder takes is the
encoding of what it gives, and of nothing else: the filling, the unused bits and the alphabet are all settled.
-/

namespace ReviewContext.Base64

/-- The standard alphabet, each character at the place of the number that it stands for. -/
def alphabet : List Char :=
  "ABCDEFGHIJKLMNOPQRSTUVWXYZabcdefghijklmnopqrstuvwxyz0123456789+/".toList

/-- The character for six bits. -/
def symbol (value : Nat) : Char :=
  alphabet.getD value '='

/-- What one, two or three bytes are cut into, six bits at a time; bits that are missing at the end are zero. -/
def sextets : List UInt8 → List Nat
  | [a] => [a.toNat / 4, a.toNat % 4 * 16]
  | [a, b] => [a.toNat / 4, a.toNat % 4 * 16 + b.toNat / 16, b.toNat % 16 * 4]
  | [a, b, c] =>
    [a.toNat / 4, a.toNat % 4 * 16 + b.toNat / 16, b.toNat % 16 * 4 + c.toNat / 64, c.toNat % 64]
  | _ => []

/-- The encoding of bytes, in one piece. -/
def encode : List UInt8 → List Char
  | a :: b :: c :: rest => (sextets [a, b, c]).map symbol ++ encode rest
  | [a, b] => (sextets [a, b]).map symbol ++ ['=']
  | [a] => (sextets [a]).map symbol ++ ['=', '=']
  | [] => []

example : ["", "f", "fo", "foo", "foob"].map (fun s => String.ofList (encode (Utf8.encode s.toList))) =
    ["", "Zg==", "Zm8=", "Zm9v", "Zm9vYg=="] := by decide

/-- The byte that a symbol is written as. -/
def symbolByte (value : Nat) : UInt8 :=
  UInt8.ofNat (symbol value).toNat

/-- The values of a group that encodes bytes: enough for one, with no bits to spare. -/
structure IsGroup (vs : List Nat) : Prop where
  small : ∀ v ∈ vs, v < 64
  enough : 2 ≤ vs.length
  most : vs.length ≤ 4
  spare : spareBits vs = 0

variable {offset : Nat} {vs : List Nat} {bytes group text : List UInt8}

/-! ## Symbols -/

private theorem utf8_symbol : ∀ v < 64, String.utf8EncodeChar (symbol v) = [symbolByte v] := by decide +kernel

private theorem value?_symbolByte : ∀ v < 64, value? (symbolByte v) = some v := by decide +kernel

private theorem symbolByte_ne_pad : ∀ v < 64, symbolByte v ≠ pad := by decide +kernel

private theorem eq_symbolByte_of_value? {byte : UInt8} {v : Nat} (known : value? byte = some v) :
    v < 64 ∧ byte = symbolByte v := by
  have own := Utf8.forall_byte (p := fun byte => (value? byte).all fun v => v < 64 ∧ byte = symbolByte v)
    (by decide +kernel) byte
  rw [known] at own
  exact of_decide_eq_true own

private theorem utf8_symbols (small : ∀ v ∈ vs, v < 64) : Utf8.encode (vs.map symbol) = vs.map symbolByte := by
  induction vs with
  | nil => rfl
  | cons v vs ih =>
    obtain ⟨first, later⟩ := List.forall_mem_cons.mp small
    rw [List.map_cons, Utf8.encode, List.flatMap_cons, utf8_symbol v first, ← Utf8.encode, ih later]
    rfl

private theorem values_eq_ok_iff {symbols : List UInt8} :
    values offset symbols = .ok vs ↔ (∀ v ∈ vs, v < 64) ∧ symbols = vs.map symbolByte := by
  induction symbols generalizing offset vs with
  | nil =>
    rw [values, Except.ok.injEq]
    constructor
    · rintro rfl
      exact ⟨nofun, rfl⟩
    · rintro ⟨-, none⟩
      exact (List.map_eq_nil_iff.mp none.symm).symm
  | cons byte rest ih =>
    rw [values]
    constructor
    · intro read
      split at read
      · cases read
      · next v known =>
        obtain ⟨more, later, rfl⟩ := except_map_eq_ok_iff.mp read
        obtain ⟨small, rfl⟩ := eq_symbolByte_of_value? known
        obtain ⟨others, rfl⟩ := ih.mp later
        exact ⟨List.forall_mem_cons.mpr ⟨small, others⟩, rfl⟩
    · rintro ⟨small, same⟩
      obtain ⟨v, more, rfl, rfl, rfl⟩ := List.map_eq_cons_iff.mp same.symm
      obtain ⟨first, others⟩ := List.forall_mem_cons.mp small
      rw [value?_symbolByte v first]
      exact except_map_eq_ok_iff.mpr ⟨more, ih.mpr ⟨others, rfl⟩, rfl⟩

/-! ## Groups -/

/-- Bytes are put together again from what they are cut into. -/
theorem isGroup_sextets (nonempty : bytes ≠ []) (short : bytes.length ≤ 3) :
    IsGroup (sextets bytes) ∧ bytesOf (sextets bytes) = bytes := by
  match bytes with
  | [a] =>
    have small := a.toNat_lt
    refine ⟨⟨?_, by simp [sextets], by simp [sextets], ?_⟩, ?_⟩
    · simp only [sextets, List.forall_mem_cons]
      exact ⟨by omega, by omega, nofun⟩
    · exact Nat.mul_mod_left _ _
    · rw [sextets, bytesOf, Utf8.ofNat_eq_of_toNat (b := a) (by omega)]
  | [a, b] =>
    have small := a.toNat_lt
    have small₂ := b.toNat_lt
    refine ⟨⟨?_, by simp [sextets], by simp [sextets], ?_⟩, ?_⟩
    · simp only [sextets, List.forall_mem_cons]
      exact ⟨by omega, by omega, by omega, nofun⟩
    · exact Nat.mul_mod_left _ _
    · rw [sextets, bytesOf, Utf8.ofNat_eq_of_toNat (b := a) (by omega),
        Utf8.ofNat_eq_of_toNat (b := b) (by omega)]
  | [a, b, c] =>
    have small := a.toNat_lt
    have small₂ := b.toNat_lt
    have small₃ := c.toNat_lt
    refine ⟨⟨?_, by simp [sextets], by simp [sextets], rfl⟩, ?_⟩
    · simp only [sextets, List.forall_mem_cons]
      exact ⟨by omega, by omega, by omega, by omega, nofun⟩
    · rw [sextets, bytesOf, Utf8.ofNat_eq_of_toNat (b := a) (by omega),
        Utf8.ofNat_eq_of_toNat (b := b) (by omega), Utf8.ofNat_eq_of_toNat (b := c) (by omega)]

private theorem spareBits_of_full (full : vs.length = 4) : spareBits vs = 0 := by
  match vs with
  | [_, _, _, _] => rfl

/-- A group without bits to spare is what its bytes are cut into. -/
theorem IsGroup.sextets_bytesOf (isGroup : IsGroup vs) :
    sextets (bytesOf vs) = vs ∧ (bytesOf vs).length + 1 = vs.length := by
  obtain ⟨small, enough, most, spare⟩ := isGroup
  match vs with
  | [p, q] =>
    obtain ⟨p_lt, q_lt, -⟩ := by simpa only [List.forall_mem_cons] using small
    rw [spareBits] at spare
    rw [bytesOf, sextets, Utf8.toNat_ofNat_of_lt (by omega)]
    refine ⟨?_, rfl⟩
    simp only [List.cons.injEq]
    exact ⟨by omega, by omega, trivial⟩
  | [p, q, r] =>
    obtain ⟨p_lt, q_lt, r_lt, -⟩ := by simpa only [List.forall_mem_cons] using small
    rw [spareBits] at spare
    rw [bytesOf, sextets, Utf8.toNat_ofNat_of_lt (by omega), Utf8.toNat_ofNat_of_lt (by omega)]
    refine ⟨?_, rfl⟩
    simp only [List.cons.injEq]
    exact ⟨by omega, by omega, by omega, trivial⟩
  | [p, q, r, s] =>
    obtain ⟨p_lt, q_lt, r_lt, s_lt, -⟩ := by simpa only [List.forall_mem_cons] using small
    rw [bytesOf, sextets, Utf8.toNat_ofNat_of_lt (by omega), Utf8.toNat_ofNat_of_lt (by omega),
      Utf8.toNat_ofNat_of_lt (by omega)]
    refine ⟨?_, rfl⟩
    simp only [List.cons.injEq]
    exact ⟨by omega, by omega, by omega, by omega, trivial⟩

/-- The bytes of an encoding. -/
def written (bytes : List UInt8) : List UInt8 :=
  Utf8.encode (encode bytes)

private theorem written_cons (a b c : UInt8) (more : List UInt8) :
    written (a :: b :: c :: more) = (sextets [a, b, c]).map symbolByte ++ written more := by
  obtain ⟨isGroup, -⟩ := isGroup_sextets (List.cons_ne_nil a [b, c]) (Nat.le_refl 3)
  show Utf8.encode ((sextets [a, b, c]).map symbol ++ encode more) = _
  rw [Utf8.encode, List.flatMap_append, ← Utf8.encode, utf8_symbols isGroup.small]
  rfl

/-- The last group is filled up to four characters. -/
theorem written_last (nonempty : bytes ≠ []) (short : bytes.length ≤ 3) :
    written bytes = (sextets bytes).map symbolByte ++ List.replicate (3 - bytes.length) pad := by
  obtain ⟨isGroup, -⟩ := isGroup_sextets nonempty short
  match bytes with
  | [a] =>
    show Utf8.encode ((sextets [a]).map symbol ++ ['=', '=']) = _
    rw [Utf8.encode, List.flatMap_append, ← Utf8.encode, utf8_symbols isGroup.small]
    rfl
  | [a, b] =>
    show Utf8.encode ((sextets [a, b]).map symbol ++ ['=']) = _
    rw [Utf8.encode, List.flatMap_append, ← Utf8.encode, utf8_symbols isGroup.small]
    rfl
  | [a, b, c] =>
    rw [written_cons]
    rfl

private theorem written_append (isGroup : IsGroup vs) (full : vs.length = 4) (more : List UInt8) :
    written (bytesOf vs ++ more) = vs.map symbolByte ++ written more := by
  obtain ⟨cut, length⟩ := isGroup.sextets_bytesOf
  obtain ⟨a, b, c, own⟩ := List.length_eq_three.mp (show (bytesOf vs).length = 3 by omega)
  rw [own] at cut ⊢
  rw [← cut]
  exact written_cons a b c more

private theorem written_bytesOf (isGroup : IsGroup vs) :
    written (bytesOf vs) = vs.map symbolByte ++ List.replicate (4 - vs.length) pad := by
  obtain ⟨cut, length⟩ := isGroup.sextets_bytesOf
  have enough := isGroup.enough
  have most := isGroup.most
  rw [written_last (List.ne_nil_of_length_pos (by omega)) (by omega), cut, ← length,
    Nat.add_sub_add_right 3 1]

private theorem length_written (bytes : List UInt8) : (written bytes).length = (bytes.length + 2) / 3 * 4 := by
  induction bytes using encode.induct with
  | case1 a b c rest ih =>
    rw [written_cons, List.length_append, ih]
    simp only [sextets, List.length_map, List.length_cons, List.length_nil]
    omega
  | case2 a b =>
    rw [written_last (List.cons_ne_nil a [b]) (by simp)]
    simp [sextets]
  | case3 a =>
    rw [written_last (List.cons_ne_nil a []) (by simp)]
    simp [sextets]
  | case4 => rfl

/-! ## What is decoded was encoded -/

/-- What the last group is checked for, in the order in which it is. -/
theorem decodeLast_eq_ok_iff_checks : decodeLast offset group = .ok bytes ↔
    ∃ vs, values offset (group.takeWhile (· != pad)) = .ok vs ∧
      (∀ byte ∈ group.dropWhile (· != pad), byte = pad) ∧
      (group ≠ [] → 2 ≤ (group.takeWhile (· != pad)).length) ∧
      group.length % 4 = 0 ∧ spareBits vs = 0 ∧ bytesOf vs = bytes := by
  have part : group = [] → group.dropWhile (· != pad) = [] := by
    rintro rfl
    rfl
  unfold decodeLast
  dsimp only
  rw [except_bind_eq_ok_iff]
  refine exists_congr fun vs => and_congr_right fun _ => ?_
  simp only [except_guard_eq_ok_iff]
  generalize group.dropWhile (· != pad) = filling at part ⊢
  simp only [Bool.and_eq_true, Bool.not_eq_eq_eq_not, Bool.not_true, List.isEmpty_eq_false_iff, Bool.or_eq_true,
    decide_eq_true_eq, List.any_eq_true, bne_iff_ne, not_and, not_or, Nat.not_lt, not_exists, Decidable.not_not, pure,
    Except.pure, Except.ok.injEq, and_congr_left_iff, and_imp]
  intro enough _ _ _
  constructor
  · intro checks byte mem
    exact (checks (List.ne_nil_of_mem mem)).2 byte mem
  · intro filled nonempty
    exact ⟨enough fun empty => nonempty (part empty), filled⟩

private theorem spans_filled (small : ∀ v ∈ vs, v < 64) (count : Nat) :
    (vs.map symbolByte ++ List.replicate count pad).takeWhile (· != pad) = vs.map symbolByte ∧
      (vs.map symbolByte ++ List.replicate count pad).dropWhile (· != pad) = List.replicate count pad := by
  have symbols : ∀ byte ∈ vs.map symbolByte, (byte != pad) = true := by
    rintro _ mem
    obtain ⟨v, known, rfl⟩ := List.mem_map.mp mem
    exact bne_iff_ne.mpr (symbolByte_ne_pad v (small v known))
  rw [List.takeWhile_append_of_pos symbols, List.dropWhile_append_of_pos symbols]
  cases count with
  | zero => simp
  | succ count => simp [List.replicate_succ]

private theorem decodeLast_eq_ok_iff (short : group.length ≤ 4) :
    decodeLast offset group = .ok bytes ↔ group = written bytes := by
  rw [decodeLast_eq_ok_iff_checks]
  constructor
  · rintro ⟨vs, read, filling, enough, whole, spare, rfl⟩
    obtain ⟨small, symbols⟩ := values_eq_ok_iff.mp read
    by_cases empty : group = []
    · subst empty
      obtain rfl := List.map_eq_nil_iff.mp symbols.symm
      rfl
    -- Four characters are left, of which the filling is what the symbols leave over.
    have length := congrArg List.length (List.takeWhile_append_dropWhile (p := (· != pad)) (l := group))
    have positive := List.length_pos_iff.mpr empty
    have least := enough empty
    rw [symbols, List.length_append, List.length_map] at length
    rw [symbols, List.length_map] at least
    rw [written_bytesOf ⟨small, least, by omega, spare⟩, ← symbols,
      show 4 - vs.length = (group.dropWhile (· != pad)).length by omega, ← List.eq_replicate_of_mem filling,
      List.takeWhile_append_dropWhile]
  · rintro rfl
    by_cases empty : bytes = []
    · subst empty
      exact ⟨[], rfl, nofun, fun nonempty => absurd rfl nonempty, rfl, rfl, rfl⟩
    have length := length_written bytes
    have few : bytes.length ≤ 3 := by omega
    have positive := List.length_pos_iff.mpr empty
    obtain ⟨isGroup, same⟩ := isGroup_sextets empty few
    have spans := spans_filled isGroup.small (3 - bytes.length)
    rw [← written_last empty few] at spans
    refine ⟨sextets bytes, ?_, ?_, fun _ => ?_, by omega, isGroup.spare, same⟩
    · rw [spans.1]
      exact values_eq_ok_iff.mpr ⟨isGroup.small, rfl⟩
    · rw [spans.2]
      exact fun byte filled => List.eq_of_mem_replicate filled
    · rw [spans.1, List.length_map]
      exact isGroup.enough

private theorem decodeFrom_eq_ok_iff : decodeFrom offset text = .ok bytes ↔ text = written bytes := by
  induction offset, text using decodeFrom.induct generalizing bytes with
  | case1 offset a b c d e rest ih =>
    rw [decodeFrom, except_bind_eq_ok_iff]
    constructor
    · rintro ⟨vs, first, read⟩
      obtain ⟨more, later, made⟩ := except_bind_eq_ok_iff.mp read
      obtain rfl := Except.ok.inj made
      obtain ⟨small, symbols⟩ := values_eq_ok_iff.mp first
      have full : vs.length = 4 := by
        rw [← List.length_map symbolByte, ← symbols]
        rfl
      rw [written_append ⟨small, by omega, by omega, spareBits_of_full full⟩ full, ← symbols, ← ih.mp later]
      rfl
    · intro same
      -- More than one group is written, so there are three bytes for the first.
      have long := length_written bytes
      rw [← same] at long
      simp only [List.length_cons] at long
      rcases bytes with _ | ⟨x, _ | ⟨y, _ | ⟨z, more⟩⟩⟩
      case cons.cons.cons =>
        rw [written_cons] at same
        obtain ⟨symbols, later⟩ := List.append_inj (show [a, b, c, d] ++ (e :: rest) = _ from same) rfl
        obtain ⟨isGroup, back⟩ := isGroup_sextets (List.cons_ne_nil x [y, z]) (Nat.le_refl 3)
        refine ⟨_, values_eq_ok_iff.mpr ⟨isGroup.small, symbols⟩,
          except_bind_eq_ok_iff.mpr ⟨more, ih.mpr later, congrArg Except.ok ?_⟩⟩
        rw [back]
        rfl
      all_goals
        simp only [List.length_cons, List.length_nil] at long
        omega
  | case2 offset group few =>
    have short : group.length ≤ 4 := by
      rcases group with _ | ⟨a, _ | ⟨b, _ | ⟨c, _ | ⟨d, _ | ⟨e, rest⟩⟩⟩⟩⟩
      case cons.cons.cons.cons.cons => exact (few a b c d e rest rfl).elim
      all_goals simp
    rw [decodeFrom, decodeLast_eq_ok_iff short]
    exact few

/-- An encoding is decoded, to the bytes that it is of, and nothing else is. -/
theorem decode_eq_ok_iff : decode text = .ok bytes ↔ text = written bytes := by
  rw [decode]
  constructor
  · intro read
    split at read
    · cases read
    · exact decodeFrom_eq_ok_iff.mp read
  · rintro rfl
    -- No single character is left over for the check in front.
    have groups : (written bytes).length % 4 = 0 := by
      rw [length_written, Nat.mul_mod_left]
    have fits : strayEnd? (written bytes) = none := by
      rw [strayEnd?]
      split
      · rw [groups]
        rfl
      · rfl
    rw [fits]
    exact decodeFrom_eq_ok_iff.mpr rfl

end ReviewContext.Base64
