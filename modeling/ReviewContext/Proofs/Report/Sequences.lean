import ReviewContext.Report.Styled

/-! # Sequences that switch styles

A reader without colours passes over every sequence that switches a style. A sequence holds one escape character, its
first, so reading starts afresh at every one, and a character that belongs to no sequence parts what stands around
it. The sequences that are put behind the resets inside of a text are therefore passed over like all others.
-/

namespace ReviewContext.Report

/-- What stands between the bracket and the letter of a sequence. -/
def isParameter (c : Char) : Bool :=
  c.isDigit || c == ';'

/-- What follows a sequence whose escape character has been read, if it is one. -/
def afterSequence? : List Char → Option (List Char)
  | '[' :: cs =>
    match cs.dropWhile isParameter with
    | 'm' :: rest => some rest
    | _ => none
  | _ => none

/-- A sequence is a bracket, digits and semicolons, and the letter. -/
theorem afterSequence?_eq_some_iff {cs rest : List Char} : afterSequence? cs = some rest ↔
    ∃ parameters, (∀ c ∈ parameters, isParameter c = true) ∧ cs = '[' :: parameters ++ 'm' :: rest := by
  constructor
  · intro found
    unfold afterSequence? at found
    split at found
    · next cs =>
      split at found
      · next rest stop =>
        cases found
        refine ⟨cs.takeWhile isParameter, List.all_eq_true.mp List.all_takeWhile, ?_⟩
        rw [← stop, List.cons_append, List.takeWhile_append_dropWhile]
      · cases found
    · cases found
  · rintro ⟨parameters, all, rfl⟩
    have stop : (parameters ++ 'm' :: rest).dropWhile isParameter = 'm' :: rest := by
      rw [List.dropWhile_append_of_pos all, List.dropWhile_cons_of_neg (by decide)]
    rw [List.cons_append, afterSequence?, stop]
    rfl

private theorem length_of_afterSequence? {cs rest : List Char} (found : afterSequence? cs = some rest) :
    rest.length < cs.length := by
  obtain ⟨parameters, -, rfl⟩ := afterSequence?_eq_some_iff.mp found
  simp only [List.cons_append, List.length_cons, List.length_append]
  omega

/-- A text without the sequences in it. -/
def withoutSequences : List Char → List Char
  | [] => []
  | c :: cs =>
    if c = escape then
      match _found : afterSequence? cs with
      | some rest => withoutSequences rest
      | none => c :: withoutSequences cs
    else c :: withoutSequences cs
termination_by cs => cs.length
decreasing_by
  · exact Nat.lt_succ_of_lt (length_of_afterSequence? _found)
  · exact Nat.lt_succ_self _
  · exact Nat.lt_succ_self _

/-- A character that no sequence goes on with. -/
def Stops (c : Char) : Prop :=
  c ≠ '[' ∧ isParameter c = false ∧ c ≠ 'm'

instance (c : Char) : Decidable (Stops c) :=
  inferInstanceAs (Decidable (_ ∧ _ ∧ _))

variable {c : Char} {cs rest text : List Char} {styles : List Style}

/-! ## Sequences -/

private theorem withoutSequences_of_ne (other : c ≠ escape) (cs : List Char) :
    withoutSequences (c :: cs) = c :: withoutSequences cs := by
  rw [withoutSequences, if_neg other]

private theorem withoutSequences_of_some (found : afterSequence? cs = some rest) :
    withoutSequences (escape :: cs) = withoutSequences rest := by
  rw [withoutSequences, if_pos rfl]
  split
  · next same => rw [Option.some.inj (same.symm.trans found)]
  · next none => rw [none] at found; cases found

private theorem withoutSequences_of_none (none : afterSequence? cs = none) :
    withoutSequences (escape :: cs) = escape :: withoutSequences cs := by
  rw [withoutSequences, if_pos rfl]
  split
  · next found => rw [none] at found; cases found
  · rfl

/-- A text is read from its start, with each sequence in one step. -/
theorem sequence_induction {motive : List Char → Prop} (nil : motive [])
    (passed : ∀ cs rest, afterSequence? cs = some rest → motive rest → motive (escape :: cs))
    (broken : ∀ cs, afterSequence? cs = none → motive cs → motive (escape :: cs))
    (other : ∀ c cs, c ≠ escape → motive cs → motive (c :: cs)) (cs : List Char) : motive cs := by
  induction cs using withoutSequences.induct with
  | case1 => exact nil
  | case2 cs rest found ih => exact passed cs rest found ih
  | case3 cs none ih => exact broken cs none ih
  | case4 c cs apart ih => exact other c cs apart ih

private theorem afterSequence?_append (stops : Stops c) (cs rest : List Char) :
    afterSequence? (cs ++ c :: rest) = (afterSequence? cs).map (· ++ c :: rest) := by
  obtain ⟨noBracket, noParameter, noLetter⟩ := stops
  refine Option.ext fun later => ?_
  rw [Option.map_eq_some_iff, afterSequence?_eq_some_iff]
  constructor
  · rintro ⟨parameters, all, whole⟩
    have split : cs ++ c :: rest = ('[' :: parameters ++ ['m']) ++ later := by
      rw [whole, List.append_assoc, List.singleton_append]
    rcases List.append_eq_append_iff.mp split with ⟨more, sequence, behind⟩ | ⟨more, front, behind⟩
    · -- Otherwise the character would stand in the sequence.
      cases more with
      | nil =>
        refine ⟨[], afterSequence?_eq_some_iff.mpr ⟨parameters, all, ?_⟩, behind⟩
        simpa using sequence.symm
      | cons d more =>
        obtain ⟨rfl, -⟩ := List.cons.inj behind
        have inside : c ∈ '[' :: parameters ++ ['m'] := by simp [sequence]
        simp only [List.cons_append, List.mem_cons, List.mem_append, List.not_mem_nil, or_false, noBracket, noLetter,
          false_or] at inside
        exact absurd (all c inside) (by simp [noParameter])
    · exact ⟨more, afterSequence?_eq_some_iff.mpr ⟨parameters, all, by simp [front]⟩, behind.symm⟩
  · rintro ⟨more, found, rfl⟩
    obtain ⟨parameters, all, rfl⟩ := afterSequence?_eq_some_iff.mp found
    exact ⟨parameters, all, by simp⟩

/-- A text is read apart from what is behind it, if that starts with a character that ends every sequence. -/
theorem withoutSequences_append (stops : Stops c) (cs rest : List Char) :
    withoutSequences (cs ++ c :: rest) = withoutSequences cs ++ withoutSequences (c :: rest) := by
  induction cs using sequence_induction with
  | nil => simp [withoutSequences]
  | passed cs later found ih =>
    have further : afterSequence? (cs ++ c :: rest) = some (later ++ c :: rest) := by
      rw [afterSequence?_append stops, found, Option.map_some]
    rw [List.cons_append, withoutSequences_of_some further, withoutSequences_of_some found, ih]
  | broken cs none ih =>
    have further : afterSequence? (cs ++ c :: rest) = Option.none := by
      rw [afterSequence?_append stops, none, Option.map_none]
    rw [List.cons_append, withoutSequences_of_none further, withoutSequences_of_none none, ih, List.cons_append]
  | other d cs apart ih =>
    rw [List.cons_append, withoutSequences_of_ne apart, withoutSequences_of_ne apart, ih, List.cons_append]

/-- A text without an escape is kept, whatever stands behind it. -/
theorem withoutSequences_clean (clean : escape ∉ text) (rest : List Char) :
    withoutSequences (text ++ rest) = text ++ withoutSequences rest := by
  induction text with
  | nil => rfl
  | cons c text ih =>
    obtain ⟨other, later⟩ := not_or.mp (mt List.mem_cons.mpr clean)
    rw [List.cons_append, withoutSequences_of_ne (Ne.symm other), ih later, List.cons_append]

theorem withoutSequences_of_clean (clean : escape ∉ text) : withoutSequences text = text := by
  have alone := withoutSequences_clean clean []
  rwa [List.append_nil, withoutSequences, List.append_nil] at alone

private theorem withoutSequences_sequence {parameters : List Char} (all : ∀ c ∈ parameters, isParameter c = true)
    (rest : List Char) : withoutSequences (escape :: '[' :: parameters ++ 'm' :: rest) = withoutSequences rest :=
  withoutSequences_of_some (afterSequence?_eq_some_iff.mpr ⟨parameters, all, rfl⟩)

theorem withoutSequences_reset (rest : List Char) : withoutSequences (reset ++ rest) = withoutSequences rest :=
  withoutSequences_sequence (List.forall_mem_singleton.mpr (show isParameter '0' = true from rfl)) rest

private theorem mem_of_mem_intersperse {α : Type} {separator x : α} : ∀ {xs : List α}, x ∈ xs.intersperse separator →
    x = separator ∨ x ∈ xs
  | [], member => nomatch member
  | [_], member => .inr member
  | y :: z :: rest, member => by
    rw [List.intersperse_cons_cons, List.mem_cons, List.mem_cons] at member
    rcases member with first | between | later
    · exact .inr (first ▸ List.mem_cons_self)
    · exact .inl between
    · exact (mem_of_mem_intersperse later).imp_right (List.mem_cons_of_mem y)

private theorem isParameter_of_mem_code (style : Style) : ∀ c ∈ style.code, isParameter c = true := by
  have all : style.code.all isParameter = true := by
    cases style <;> rfl
  exact List.all_eq_true.mp all

theorem withoutSequences_switchOn (styles : List Style) (rest : List Char) :
    withoutSequences (switchOn styles ++ rest) = withoutSequences rest := by
  have all : ∀ c ∈ ((styles.map Style.code).intersperse [';']).flatten, isParameter c = true := by
    intro c member
    obtain ⟨code, between, inside⟩ := List.mem_flatten.mp member
    rcases mem_of_mem_intersperse between with rfl | known
    · exact List.mem_singleton.mp inside ▸ rfl
    · obtain ⟨style, -, rfl⟩ := List.mem_map.mp known
      exact isParameter_of_mem_code style c inside
  rw [switchOn, List.append_assoc, List.singleton_append]
  exact withoutSequences_sequence all rest

/-! ## Resets inside of a text -/

section

variable {more : List Char}

private theorem afterResets_of_ne (other : c ≠ escape) (cs : List Char) :
    afterResets more (c :: cs) = c :: afterResets more cs := by
  rw [afterResets]
  rintro rest rfl
  exact absurd rfl other

private theorem afterResets_reset (cs : List Char) :
    afterResets more (reset ++ cs) = reset ++ (more ++ afterResets more cs) :=
  List.append_assoc _ _ _

private theorem afterResets_broken (noReset : ∀ rest, cs ≠ '[' :: '0' :: 'm' :: rest) :
    afterResets more (escape :: cs) = escape :: afterResets more cs := by
  rw [afterResets]
  exact fun rest _ => noReset rest

private theorem afterResets_clean (clean : escape ∉ text) (rest : List Char) :
    afterResets more (text ++ rest) = text ++ afterResets more rest := by
  induction text with
  | nil => rfl
  | cons c text ih =>
    obtain ⟨other, later⟩ := not_or.mp (mt List.mem_cons.mpr clean)
    rw [List.cons_append, afterResets_of_ne (Ne.symm other), ih later, List.cons_append]

private theorem exists_afterResets_escape (cs : List Char) :
    ∃ rest, afterResets more (escape :: cs) = escape :: rest := by
  by_cases inside : ∃ rest, cs = '[' :: '0' :: 'm' :: rest
  · obtain ⟨rest, rfl⟩ := inside
    exact ⟨_, afterResets_reset rest⟩
  · exact ⟨_, afterResets_broken fun rest same => inside ⟨rest, same⟩⟩

/-- What stands in front of the first escape character stood there before. -/
theorem exists_of_afterResets_clean (clean : escape ∉ text) (same : afterResets more cs = text ++ rest) :
    ∃ later, cs = text ++ later ∧ afterResets more later = rest := by
  induction text generalizing cs with
  | nil => exact ⟨cs, rfl, same⟩
  | cons c text ih =>
    obtain ⟨other, cleanToo⟩ := not_or.mp (mt List.mem_cons.mpr clean)
    cases cs with
    | nil => cases same
    | cons d cs =>
      by_cases first : d = escape
      · obtain ⟨tail, escaped⟩ : ∃ tail, afterResets more (escape :: cs) = escape :: tail :=
          exists_afterResets_escape cs
        rw [first, escaped] at same
        exact absurd (List.cons.inj same).1 other
      · rw [afterResets_of_ne first] at same
        obtain ⟨rfl, sameToo⟩ := List.cons.inj same
        obtain ⟨later, rfl, behind⟩ := ih cleanToo sameToo
        exact ⟨later, rfl, behind⟩

private theorem escape_not_mem_sequence {parameters : List Char} (all : ∀ c ∈ parameters, isParameter c = true) :
    escape ∉ '[' :: parameters ++ ['m'] := by
  intro member
  rcases List.mem_append.mp member with front | last
  · rcases List.mem_cons.mp front with bracket | inside
    · exact absurd bracket (by decide)
    · exact absurd (all escape inside) (by decide)
  · exact absurd last (by decide)

private theorem afterSequence?_afterResets (cs : List Char) :
    afterSequence? (afterResets more cs) = (afterSequence? cs).map (afterResets more) := by
  refine Option.ext fun later => ?_
  rw [Option.map_eq_some_iff, afterSequence?_eq_some_iff]
  constructor
  · rintro ⟨parameters, all, whole⟩
    have front : afterResets more cs = ('[' :: parameters ++ ['m']) ++ later := by
      rw [whole, List.append_assoc, List.singleton_append]
    obtain ⟨rest, rfl, behind⟩ := exists_of_afterResets_clean (escape_not_mem_sequence all) front
    exact ⟨rest, afterSequence?_eq_some_iff.mpr ⟨parameters, all, by simp⟩, behind⟩
  · rintro ⟨rest, found, rfl⟩
    obtain ⟨parameters, all, rfl⟩ := afterSequence?_eq_some_iff.mp found
    refine ⟨parameters, all, ?_⟩
    have copied : afterResets more ('[' :: parameters ++ ['m'] ++ rest) = '[' :: parameters ++ ['m'] ++ _ :=
      afterResets_clean (escape_not_mem_sequence all) rest
    rwa [List.append_assoc, List.append_assoc, List.singleton_append, List.singleton_append] at copied

end

/-- Switching the styles on again after each reset adds nothing that is seen. -/
theorem withoutSequences_afterResets (styles : List Style) (text : List Char) :
    withoutSequences (afterResets (switchOn styles) text) = withoutSequences text := by
  induction text using sequence_induction with
  | nil => rfl
  | passed cs rest found ih =>
    by_cases inside : ∃ tail, cs = '[' :: '0' :: 'm' :: tail
    · obtain ⟨tail, rfl⟩ := inside
      obtain rfl : tail = rest := Option.some.inj found
      have whole : escape :: '[' :: '0' :: 'm' :: tail = reset ++ tail := rfl
      rw [whole, afterResets_reset, withoutSequences_reset, withoutSequences_switchOn, ih, withoutSequences_reset]
    · have further : afterSequence? (afterResets (switchOn styles) cs) = _ := afterSequence?_afterResets cs
      rw [found, Option.map_some] at further
      rw [afterResets_broken fun tail same => inside ⟨tail, same⟩, withoutSequences_of_some further, ih,
        withoutSequences_of_some found]
  | broken cs unfound ih =>
    have further : afterSequence? (afterResets (switchOn styles) cs) = _ := afterSequence?_afterResets cs
    rw [unfound, Option.map_none] at further
    have noReset (tail : List Char) : cs ≠ '[' :: '0' :: 'm' :: tail := by
      rintro rfl
      cases unfound
    rw [afterResets_broken noReset, withoutSequences_of_none further, ih, withoutSequences_of_none unfound]
  | other c cs apart ih => rw [afterResets_of_ne apart, withoutSequences_of_ne apart, ih, withoutSequences_of_ne apart]

end ReviewContext.Report
