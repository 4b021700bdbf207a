import Mathlib.Data.List.TakeWhile
import ReviewContext.Text.Basic
import ReviewContext.Text.Word

/-! # Words and blanks

No word character is a blank. A trimmed text has no blank at its ends, and what trimming, splitting and cutting
into words leave was in the text before.
-/

namespace ReviewContext.Text

variable {cs : List Char}

/-- No blank stands at either end. -/
def Trimmed (cs : List Char) : Prop :=
  cs.head?.all (!isBlank ·) ∧ cs.getLast?.all (!isBlank ·)

private theorem trimStart_ends (cs : List Char) : trimStart cs <:+ cs :=
  List.dropWhile_suffix _

private theorem trimEnd_starts (cs : List Char) : trimEnd cs <+: cs := by
  have ends := List.reverse_prefix.mpr (trimStart_ends cs.reverse)
  rwa [List.reverse_reverse] at ends

/-- Trimming adds nothing. -/
theorem mem_of_mem_trim {c : Char} (member : c ∈ trim cs) : c ∈ cs := by
  apply (trimStart_ends cs).subset
  exact (trimEnd_starts (trimStart cs)).subset member

private theorem head?_trimStart (cs : List Char) : (trimStart cs).head?.all (!isBlank ·) := by
  induction cs with
  | nil => rfl
  | cons c cs ih =>
    by_cases blank : isBlank c
    · rw [trimStart, List.dropWhile_cons_of_pos blank]
      exact ih
    · rw [trimStart, List.dropWhile_cons_of_neg blank]
      simpa using blank

/-- After trimming a text is trimmed. -/
theorem trim_trimmed (cs : List Char) : Trimmed (trim cs) := by
  constructor
  · cases whole : trim cs with
    | nil => rfl
    | cons c rest =>
      obtain ⟨more, front⟩ := trimEnd_starts (trimStart cs)
      have first := head?_trimStart cs
      rw [← front, show trimEnd (trimStart cs) = c :: rest from whole] at first
      exact first
  · rw [trim, trimEnd, List.getLast?_reverse]
    apply head?_trimStart

theorem dropWhile_of_head {p : Char → Bool} (first : cs.head?.all (!p ·)) : cs.dropWhile p = cs := by
  cases cs with
  | nil => rfl
  | cons c cs => exact List.dropWhile_cons_of_neg (by simpa using first)

/-- A trimmed text is its own trimming. -/
theorem trim_of_trimmed (trimmed : Trimmed cs) : trim cs = cs := by
  have last : cs.reverse.head?.all (!isBlank ·) := by
    rw [List.head?_reverse]
    exact trimmed.2
  rw [trim, trimStart, dropWhile_of_head trimmed.1, trimEnd, dropWhile_of_head last, List.reverse_reverse]

theorem trimmed_of_solid (solid : ∀ c ∈ cs, isBlank c = false) : Trimmed cs := by
  constructor
  · cases cs with
    | nil => rfl
    | cons c cs => simp [solid c List.mem_cons_self]
  · cases last : cs.getLast? with
    | none => rfl
    | some c => simp [solid c (List.mem_of_getLast? last)]

/-- A piece without separators is the first of the pieces. -/
theorem splitBy_append {isSeparator : Char → Bool} {piece : List Char} {separator : Char}
    (solid : ∀ c ∈ piece, isSeparator c = false) (separates : isSeparator separator = true) (cs : List Char) :
    splitBy isSeparator (piece ++ separator :: cs) = piece :: splitBy isSeparator cs := by
  induction piece with
  | nil => simp only [splitBy, List.nil_append, List.foldr_cons, separates, ↓reduceIte]
  | cons c piece ih =>
    have inside : isSeparator c = false := solid c List.mem_cons_self
    have tail := ih fun d member => solid d (List.mem_cons_of_mem c member)
    unfold splitBy at tail ⊢
    rw [List.cons_append, List.foldr_cons, tail, inside]
    rfl

/-- Without separators there is one piece. -/
theorem splitBy_of_solid {isSeparator : Char → Bool} (solid : ∀ c ∈ cs, isSeparator c = false) :
    splitBy isSeparator cs = [cs] := by
  induction cs with
  | nil => rfl
  | cons c cs ih =>
    obtain ⟨inside, later⟩ := List.forall_mem_cons.mp solid
    have tail := ih later
    unfold splitBy at tail ⊢
    rw [List.foldr_cons, tail, inside]
    rfl

/-- A text without blanks is one word, if it is not empty. -/
theorem words_of_solid (some : cs ≠ []) (solid : ∀ c ∈ cs, isBlank c = false) : words cs = [cs] := by
  rw [words, splitBy_of_solid solid, List.filter_cons_of_pos]
  · rfl
  · simpa using some

/-- A word in front of a blank is the first of the words. -/
theorem words_append {word : List Char} {blank : Char} (some : word ≠ []) (solid : ∀ c ∈ word, isBlank c = false)
    (separates : isBlank blank = true) (cs : List Char) : words (word ++ blank :: cs) = word :: words cs := by
  rw [words, splitBy_append solid separates, List.filter_cons_of_pos]
  · rfl
  · simpa using some

/-- A blank in front adds no word. -/
theorem words_blank {blank : Char} (separates : isBlank blank = true) (cs : List Char) :
    words (blank :: cs) = words cs := by
  have solid : ∀ c ∈ ([] : List Char), isBlank c = false := nofun
  have split := splitBy_append solid separates cs
  rw [words, ← List.nil_append (blank :: cs), split, List.filter_cons_of_neg (by simp)]
  rfl

/-- Pieces are made of characters of the text that do not separate. -/
theorem mem_of_mem_splitBy {isSeparator : Char → Bool} {piece : List Char}
    (member : piece ∈ splitBy isSeparator cs) : ∀ c ∈ piece, c ∈ cs ∧ ¬ isSeparator c := by
  induction cs generalizing piece with
  | nil =>
    obtain rfl : piece = [] := by simpa [splitBy] using member
    exact nofun
  | cons d cs ih =>
    have later {piece : List Char} (member : piece ∈ splitBy isSeparator cs) :
        ∀ c ∈ piece, c ∈ d :: cs ∧ ¬ isSeparator c :=
      fun c inside => (ih member c inside).imp (List.mem_cons_of_mem d) id
    rw [splitBy, List.foldr_cons, ← splitBy] at member
    split at member
    · rcases List.mem_cons.mp member with rfl | member
      · exact nofun
      · exact later member
    next solid =>
    have first : d ∈ d :: cs ∧ ¬ isSeparator d := ⟨List.mem_cons_self, solid⟩
    split at member
    · obtain rfl := List.mem_singleton.mp member
      exact List.forall_mem_singleton.mpr first
    · next head pieces split =>
      rw [split] at later
      rcases List.mem_cons.mp member with rfl | member
      · exact List.forall_mem_cons.mpr ⟨first, later List.mem_cons_self⟩
      · exact later (List.mem_cons_of_mem head member)

/-- Words are made of characters of the text that are no blanks. -/
theorem mem_of_mem_words {word : List Char} (member : word ∈ words cs) : ∀ c ∈ word, c ∈ cs ∧ ¬ isBlank c :=
  mem_of_mem_splitBy (List.mem_filter.mp member).1

/-- The code points of the blanks. -/
def blanks : List Nat :=
  List.range' 9 5 ++ List.range' 0x2000 11 ++
    [0x20, 0x85, 0xA0, 0x1680, 0x2028, 0x2029, 0x202F, 0x205F, 0x3000]

private theorem toNat_mem_blanks {c : Char} (blank : isBlank c) : c.toNat ∈ blanks := by
  simp only [isBlank, Bool.or_eq_true, Bool.and_eq_true, decide_eq_true_eq, beq_iff_eq] at blank
  simp only [blanks, List.mem_append, List.mem_range'_1, List.mem_cons, List.not_mem_nil, or_false]
  omega

private theorem isWord_eq (c : Char) : isWord c = if c.toNat < 128 then isAsciiWord c else
    wordBoundaries.toList.foldl (fun inside b => if b ≤ c.toNat then !inside else inside) false := by
  rw [isWord, withinBoundaries, Array.foldl_toList]

private theorem not_isWord_of_isBlank {c : Char} (blank : isBlank c) : isWord c = false := by
  have all : ∀ n ∈ blanks, (if n < 128 then isAsciiWord (Char.ofNat n) else
      wordBoundaries.toList.foldl (fun inside b => if b ≤ n then !inside else inside) false) = false := by
    decide +kernel
  have same := all c.toNat (toNat_mem_blanks blank)
  rwa [Char.ofNat_toNat, ← isWord_eq] at same

theorem not_isBlank_of_isWord {c : Char} (word : isWord c) : isBlank c = false := by
  cases blank : isBlank c with
  | false => rfl
  | true => exact absurd word (by simp [not_isWord_of_isBlank blank])

end ReviewContext.Text
