import Mathlib.Data.List.Basic
import Mathlib.Data.List.TakeWhile
import ReviewContext.Source.Exports
import ReviewContext.Source.Imports

/-! # How far a reader looks

A character that no piece of a statement takes ends a statement as the end of the text does: what stands behind
it makes no difference. The readers of names stop at every quote. Those of quoted modules stop at a back quote too,
unless they have met a quote on the same line that nothing has closed yet.
-/

namespace ReviewContext.Source

/-- To the piece, `d` is the end of the text. -/
def EndsAt (d : Char) (piece : List Char → Option (List Char)) : Prop :=
  ∀ cs rest, piece (cs ++ d :: rest) = (piece cs).map (· ++ d :: rest)

/-- To the reader, at the head of this text, `d` is its end. -/
def StopsAt {α : Type} (d : Char) (read : Reader α) (cs : List Char) : Prop :=
  ∀ rest, read (cs ++ d :: rest) = (read cs).map (Prod.map id (· ++ d :: rest))

variable {α : Type} {d : Char} {piece next : List Char → Option (List Char)}

/-! ## Pieces -/

theorem takeWhile_stop {p : Char → Bool} (stop : p d = false) (cs rest : List Char) :
    (cs ++ d :: rest).takeWhile p = cs.takeWhile p := by
  rw [List.takeWhile_append, List.takeWhile_cons_of_neg (by simp [stop])]
  split
  · next whole => rw [List.append_nil, (List.takeWhile_prefix p).eq_of_length whole]
  · rfl

theorem dropWhile_stop {p : Char → Bool} (stop : p d = false) (cs rest : List Char) :
    (cs ++ d :: rest).dropWhile p = cs.dropWhile p ++ d :: rest := by
  rw [List.dropWhile_append, List.dropWhile_cons_of_neg (by simp [stop])]
  split
  · next none => rw [List.isEmpty_iff.mp none, List.nil_append]
  · rfl

theorem trimStart_stop (solid : Text.isBlank d = false) (cs rest : List Char) :
    Text.trimStart (cs ++ d :: rest) = Text.trimStart cs ++ d :: rest :=
  dropWhile_stop solid cs rest

/-- A keyword ends at any character that it does not hold. -/
theorem keyword?_endsAt {word : String} (absent : d ∉ word.toList) : EndsAt d (keyword? word) := by
  intro cs rest
  unfold keyword?
  generalize word.toList = marks at absent
  induction marks generalizing cs with
  | nil => rfl
  | cons mark marks ih =>
    obtain ⟨other, absent⟩ := not_or.mp (mt List.mem_cons.mpr absent)
    cases cs with
    | nil => simp [List.isPrefixOf?, Ne.symm other]
    | cons c cs =>
      simp only [List.cons_append, List.isPrefixOf?]
      split
      · exact ih cs absent
      · rfl

/-- A gap ends at any character that is no blank. -/
theorem gap?_endsAt (solid : Text.isBlank d = false) : EndsAt d gap? := by
  intro cs rest
  cases cs with
  | nil => simp only [List.nil_append, gap?, solid, Bool.false_eq_true, ↓reduceIte, Option.map_none]
  | cons c cs =>
    simp only [List.cons_append, gap?, trimStart_stop solid]
    split <;> rfl

/-- Two pieces that end at a character end there together. -/
theorem EndsAt.bind (first : EndsAt d piece) (second : EndsAt d next) : EndsAt d fun cs => piece cs >>= next := by
  intro cs rest
  change (piece (cs ++ d :: rest)).bind next = ((piece cs).bind next).map _
  rw [first cs rest]
  cases piece cs with
  | none => rfl
  | some left => exact second left rest

private theorem oneOf?_endsAt {keywords : List String} (solid : Text.isBlank d = false)
    (absent : ∀ word ∈ keywords, d ∉ word.toList) : EndsAt d (oneOf? keywords) := by
  intro cs rest
  unfold oneOf?
  induction keywords with
  | nil => rfl
  | cons word keywords ih =>
    have head : (keyword? word (cs ++ d :: rest) >>= gap?) = (keyword? word cs >>= gap?).map (· ++ d :: rest) :=
      (keyword?_endsAt (absent word List.mem_cons_self)).bind (gap?_endsAt solid) cs rest
    have tail := ih fun word member => absent word (List.mem_cons_of_mem _ member)
    rw [List.findSome?_cons, List.findSome?_cons, head, tail]
    cases keyword? word cs >>= gap? <;> rfl

private theorem EndsAt.optional (ends : EndsAt d piece) (cs rest : List Char) :
    optional piece (cs ++ d :: rest) = optional piece cs ++ d :: rest := by
  unfold Source.optional
  rw [ends cs rest]
  cases piece cs <;> rfl

private theorem EndsAt.filter {p : List Char → Bool} (ends : EndsAt d piece)
    (same : ∀ cs rest, p (cs ++ d :: rest) = p cs) : EndsAt d fun cs => (piece cs).filter p := by
  intro cs rest
  dsimp only
  rw [ends cs rest]
  cases piece cs with
  | none => rfl
  | some left =>
    simp only [Option.map_some, Option.filter_some, same]
    split <;> rfl

/-- A keyword is taken from the text that starts with it. -/
theorem keyword?_eq_some_iff {word : String} {cs left : List Char} :
    keyword? word cs = some left ↔ cs = word.toList ++ left := by
  rw [keyword?, List.isPrefixOf?_eq_some_iff_append_eq, eq_comm]

/-- The piece takes at least one character. -/
def Shortens (piece : List Char → Option (List Char)) : Prop :=
  ∀ cs left, piece cs = some left → left.length < cs.length

theorem gap?_shortens : Shortens gap? := by
  intro cs left taken
  cases cs with
  | nil => cases taken
  | cons c cs =>
    simp only [gap?] at taken
    split at taken
    · cases taken
      exact Nat.lt_succ_of_le (List.dropWhile_suffix _).length_le
    · cases taken

/-- One of some keywords takes at least the gap behind it. -/
theorem oneOf?_shortens (keywords : List String) : Shortens (oneOf? keywords) := by
  intro cs left taken
  obtain ⟨word, -, taken⟩ := List.exists_of_findSome?_eq_some taken
  obtain ⟨middle, first, second⟩ := Option.bind_eq_some_iff.mp taken
  have shorter := gap?_shortens _ _ second
  rw [keyword?_eq_some_iff.mp first, List.length_append]
  omega

private theorem repeated_endsAt (ends : EndsAt d piece) (shortens : Shortens piece) {bound : Nat} {cs : List Char}
    (enough : cs.length ≤ bound) (more : Nat) (rest : List Char) :
    repeated piece (bound + more) (cs ++ d :: rest) = repeated piece bound cs ++ d :: rest := by
  induction bound generalizing cs with
  | zero =>
    obtain rfl := List.eq_nil_of_length_eq_zero (Nat.le_zero.mp enough)
    have nothing : piece [] = none := by
      cases taken : piece [] with
      | none => rfl
      | some left => exact absurd (shortens _ _ taken) (Nat.not_lt_zero _)
    cases more with
    | zero => rfl
    | succ more =>
      have stopped : piece (d :: rest) = none := by
        rw [← List.nil_append (d :: rest), ends, nothing, Option.map_none]
      simp only [List.nil_append, repeated, stopped]
  | succ bound ih =>
    rw [Nat.add_right_comm, repeated, repeated, ends]
    cases taken : piece cs with
    | none => rfl
    | some left => exact ih (Nat.le_of_lt_succ (Nat.lt_of_lt_of_le (shortens _ _ taken) enough))

private theorem many_endsAt (ends : EndsAt d piece) (shortens : Shortens piece) (cs rest : List Char) :
    many piece (cs ++ d :: rest) = many piece cs ++ d :: rest := by
  unfold many
  rw [List.length_append]
  exact repeated_endsAt ends shortens (Nat.le_refl _) _ rest

/-! ## Readers of names -/

private theorem EndsAt.stopsAt {read : Reader α} (ends : EndsAt d piece) (stops : ∀ cs, StopsAt d read cs)
    (cs : List Char) : StopsAt d (fun cs => piece cs >>= read) cs := by
  intro rest
  change (piece (cs ++ d :: rest)).bind read = ((piece cs).bind read).map _
  rw [ends cs rest]
  cases piece cs with
  | none => rfl
  | some left => exact stops left rest

private theorem typeName?_stopsAt {inName : Char → Bool} (lower : d.isUpper = false) (outside : inName d = false)
    (cs : List Char) : StopsAt d (typeName? inName) cs := by
  intro rest
  cases cs with
  | nil => simp [typeName?, lower]
  | cons c cs =>
    simp only [List.cons_append, typeName?, takeWhile_stop outside, dropWhile_stop outside]
    split <;> rfl

private theorem StopsAt.comp (read : Reader α) {skip : List Char → List Char}
    (skips : ∀ cs rest, skip (cs ++ d :: rest) = skip cs ++ d :: rest) (stops : ∀ cs, StopsAt d read cs)
    (cs : List Char) : StopsAt d (fun cs => read (skip cs)) cs := by
  intro rest
  dsimp only
  rw [skips, stops]

namespace Exports

private theorem modifiers_endsAt {words : List String} (solid : Text.isBlank d = false)
    (absent : ∀ word ∈ words, d ∉ word.toList) (cs rest : List Char) :
    words.foldl (fun rest modifier => optional (oneOf? [modifier]) rest) (cs ++ d :: rest) =
      words.foldl (fun rest modifier => optional (oneOf? [modifier]) rest) cs ++ d :: rest := by
  induction words generalizing cs with
  | nil => rfl
  | cons word words ih =>
    have first : EndsAt d (oneOf? [word]) := oneOf?_endsAt solid fun other member => by
      rw [List.mem_singleton.mp member]
      exact absent word List.mem_cons_self
    rw [List.foldl_cons, List.foldl_cons, first.optional]
    exact ih (fun word member => absent word (List.mem_cons_of_mem _ member)) _

/-- An export of JavaScript or TypeScript does not reach beyond a back quote. -/
theorem script?_stopsAt : ∀ cs, StopsAt '\x60' script? cs := by
  refine (oneOf?_endsAt (by decide) (by decide)).stopsAt ?_
  refine StopsAt.comp (fun rest => oneOf? _ rest >>= typeName? inScriptName)
    (modifiers_endsAt (by decide) (by decide)) ?_
  exact (oneOf?_endsAt (by decide) (by decide)).stopsAt (typeName?_stopsAt (by decide) (by decide))

/-- A public item of Rust does not reach beyond a double quote. -/
theorem pub?_stopsAt : ∀ cs, StopsAt '"' pub? cs := by
  refine (oneOf?_endsAt (by decide) (by decide)).stopsAt ?_
  refine StopsAt.comp (fun rest => oneOf? _ rest >>= typeName? Text.isWord) (many_endsAt ?_ ?_) ?_
  · refine EndsAt.filter (oneOf?_endsAt (by decide) (by decide)) fun cs rest => ?_
    cases cs <;> rfl
  · intro cs left taken
    exact oneOf?_shortens _ _ _ (Option.filter_eq_some_iff.mp taken).1
  · exact (oneOf?_endsAt (by decide) (by decide)).stopsAt (typeName?_stopsAt (by decide) (by decide))

/-- A declaration does not reach beyond a character that is in none of its parts. -/
theorem declaration?_stopsAt {modifiers kinds : List String} (solid : Text.isBlank d = false)
    (lower : d.isUpper = false) (outside : Text.isWord d = false)
    (absent : ∀ word ∈ modifiers ++ kinds, d ∉ word.toList) :
    ∀ cs, StopsAt d (declaration? modifiers kinds) cs := by
  have modifiers_absent := fun word member => absent word (List.mem_append_left kinds member)
  have kinds_absent := fun word member => absent word (List.mem_append_right modifiers member)
  refine StopsAt.comp (fun rest => oneOf? kinds rest >>= typeName? Text.isWord)
    (many_endsAt (oneOf?_endsAt solid modifiers_absent) (oneOf?_shortens modifiers)) ?_
  exact (oneOf?_endsAt solid kinds_absent).stopsAt (typeName?_stopsAt lower outside)

end Exports

/-! ## Readers of quoted modules -/

/-- No quote of any kind. -/
def Bare (c : Char) : Prop :=
  c ≠ '"' ∧ c ≠ '\'' ∧ c ≠ '\x60'

instance (c : Char) : Decidable (Bare c) :=
  inferInstanceAs (Decidable (_ ∧ _ ∧ _))

/-- The piece takes no quote. -/
def Plain (piece : List Char → Option (List Char)) : Prop :=
  ∀ cs left, piece cs = some left → ∃ taken, cs = taken ++ left ∧ ∀ c ∈ taken, Bare c

/-- What may stand between two quotes. -/
def inQuotes (c : Char) : Bool :=
  !isQuote c && c != '\n'

/-- The text has a first quote with no other behind it, and no newline. -/
def Unclosed (cs : List Char) : Prop :=
  ∃ lead quote inner, cs = lead ++ quote :: inner ∧ (∀ c ∈ lead, Bare c) ∧ isQuote quote ∧ ∀ c ∈ inner, inQuotes c

/-- A statement at the head of this text that takes `d` too ends on the line of `d`. -/
def EndsInLine (d : Char) (read : Reader α) (cs : List Char) : Prop :=
  ∀ rest name left, read (cs ++ d :: rest) = some (name, left) →
    ∃ crossed, rest = crossed ++ left ∧ '\n' ∉ crossed

/-- At the head of a text the reader does not look beyond `d`, or not beyond its line. -/
def Contained (d : Char) (read : Reader α) (cs : List Char) : Prop :=
  StopsAt d read cs ∨ EndsInLine d read cs

/-- The reader looks beyond `d` only where it has met an unclosed quote. -/
def Guarded (d : Char) (read : Reader α) : Prop :=
  ∀ cs, StopsAt d read cs ∨ Unclosed cs

/-- A run takes all characters of the class, and there is none without any. -/
theorem run?_eq (inClass : Char → Bool) (cs : List Char) : run? inClass cs =
    if cs.takeWhile inClass = [] then none else some (cs.takeWhile inClass, cs.dropWhile inClass) := by
  unfold run?
  split
  · next empty => rw [if_pos empty]
  · next run some => rw [if_neg some]

theorem quotedText?_cons (quote : Char) (cs : List Char) : quotedText? (quote :: cs) =
    if isQuote quote then (run? inQuotes cs).bind fun (text, rest) =>
      match rest with
      | close :: after => if isQuote close then some (text, after) else none
      | [] => none
    else none :=
  rfl

/-- What is never closed is no text in quotes. -/
theorem quotedText?_of_open {quote : Char} {cs : List Char} (within : ∀ c ∈ cs, inQuotes c) :
    quotedText? (quote :: cs) = none := by
  rw [quotedText?_cons, run?_eq, List.dropWhile_eq_nil_iff.mpr within]
  split
  · split <;> rfl
  · rfl

/-- The first character that may not stand in quotes decides: it closes the text, or there is none. -/
theorem quotedText?_of_closed {quote close : Char} {text cs : List Char} (within : ∀ c ∈ text, inQuotes c)
    (outside : ¬ inQuotes close) : quotedText? (quote :: (text ++ close :: cs)) =
      if isQuote quote ∧ text ≠ [] ∧ isQuote close then some (text, cs) else none := by
  rw [quotedText?_cons, run?_eq, List.takeWhile_append_of_pos within, List.takeWhile_cons_of_neg outside,
    List.append_nil, List.dropWhile_append_of_pos within, List.dropWhile_cons_of_neg outside]
  by_cases opens : isQuote quote
  · by_cases empty : text = []
    · rw [if_pos opens, if_pos empty, if_neg fun all => all.2.1 empty]
      rfl
    · simp only [opens, empty, ↓reduceIte, Option.bind_some, ne_eq, not_false_eq_true, true_and]
  · rw [if_neg opens, if_neg fun all => opens all.1]

theorem isQuote_not_inQuotes {c : Char} (quote : isQuote c) : ¬ inQuotes c := by
  simp [inQuotes, quote]

/-- If not all characters are of the class, there is a first one that is not. -/
theorem all_or_exists_first (inClass : Char → Bool) (cs : List Char) :
    (∀ c ∈ cs, inClass c) ∨ ∃ lead c rest, cs = lead ++ c :: rest ∧ (∀ c ∈ lead, inClass c) ∧ ¬ inClass c := by
  induction cs with
  | nil => exact .inl fun _ member => nomatch member
  | cons c cs ih =>
    by_cases inside : inClass c
    · rcases ih with all | ⟨lead, first, rest, rfl, within, outside⟩
      · exact .inl (List.forall_mem_cons.mpr ⟨inside, all⟩)
      · exact .inr ⟨c :: lead, first, rest, rfl, List.forall_mem_cons.mpr ⟨inside, within⟩, outside⟩
    · exact .inr ⟨[], c, cs, rfl, fun _ member => (nomatch member), inside⟩

/-- A part whose characters are all inside cannot reach beyond one that is outside. -/
theorem exists_of_append_eq {inClass : Char → Bool} {cs rest lead tail : List Char} {c : Char}
    (within : ∀ c ∈ cs, inClass c) (outside : ¬ inClass c) (same : cs ++ rest = lead ++ c :: tail) :
    ∃ more, lead = cs ++ more ∧ rest = more ++ c :: tail := by
  rcases List.append_eq_append_iff.mp same with reach | ⟨more, rfl, left⟩
  · exact reach
  · cases more with
    | nil => exact ⟨[], by rw [List.append_nil, List.append_nil], left.symm⟩
    | cons e more =>
      obtain ⟨rfl, -⟩ := List.cons.inj left
      exact absurd (within c (List.mem_append_right _ List.mem_cons_self)) outside

/-- A text in quotes is not empty, and any two quotes may stand around it. -/
theorem quotedText?_eq_some_iff {cs text left : List Char} : quotedText? cs = some (text, left) ↔
    ∃ quote close, cs = quote :: (text ++ close :: left) ∧ isQuote quote ∧ isQuote close ∧ text ≠ [] ∧
      ∀ c ∈ text, inQuotes c := by
  constructor
  · intro found
    cases cs with
    | nil => cases found
    | cons quote cs =>
      rcases all_or_exists_first inQuotes cs with all | ⟨lead, close, rest, rfl, within, outside⟩
      · rw [quotedText?_of_open all] at found
        cases found
      · rw [quotedText?_of_closed within outside] at found
        split at found
        · next all =>
          cases found
          exact ⟨quote, close, rfl, all.1, all.2.2, all.2.1, within⟩
        · cases found
  · rintro ⟨quote, close, rfl, opens, closes, some, within⟩
    rw [quotedText?_of_closed within (isQuote_not_inQuotes closes), if_pos ⟨opens, some, closes⟩]

private theorem quotedText?_stopsAt_or (inner : inQuotes d) (cs : List Char) :
    StopsAt d quotedText? cs ∨ (Unclosed cs ∧ EndsInLine d quotedText? cs) := by
  match cs with
  | [] =>
    refine .inl fun rest => ?_
    have solid : isQuote d = false := by simp_all [inQuotes]
    rw [List.nil_append, quotedText?_cons, solid]
    rfl
  | quote :: cs =>
    rcases all_or_exists_first inQuotes cs with all | ⟨lead, close, tail, rfl, within, outside⟩
    · by_cases opens : isQuote quote
      · have unclosed : Unclosed (quote :: cs) := ⟨[], quote, cs, rfl, fun _ member => (nomatch member), opens, all⟩
        refine .inr ⟨unclosed, fun rest name left found => ?_⟩
        obtain ⟨_, close, same, _, closes, _, within⟩ := quotedText?_eq_some_iff.mp found
        have tail : (cs ++ [d]) ++ rest = name ++ close :: left := by
          rw [← List.append_cons]
          exact (List.cons.inj same).2
        obtain ⟨more, rfl, rfl⟩ := exists_of_append_eq (List.forall_mem_append.mpr ⟨all, by simpa using inner⟩)
          (isQuote_not_inQuotes closes) tail
        refine ⟨more ++ [close], by rw [List.append_assoc, List.singleton_append], fun newline => ?_⟩
        rcases List.mem_append.mp newline with inText | isClose
        · exact absurd (within _ (List.mem_append_right _ inText)) (by decide)
        · rw [← List.mem_singleton.mp isClose] at closes
          exact absurd closes (by decide)
      · refine .inl fun rest => ?_
        rw [List.cons_append, quotedText?_cons, quotedText?_cons, if_neg opens, if_neg opens]
        rfl
    · refine .inl fun rest => ?_
      rw [List.cons_append, List.append_assoc, List.cons_append, quotedText?_of_closed within outside,
        quotedText?_of_closed within outside]
      split <;> rfl

/-- A character that may stand in quotes is looked beyond only behind an open quote. -/
theorem quotedText?_guarded (inner : inQuotes d) : Guarded d quotedText? :=
  fun cs => (quotedText?_stopsAt_or inner cs).imp id And.left

private theorem quotedText?_contained (inner : inQuotes d) (cs : List Char) : Contained d quotedText? cs :=
  (quotedText?_stopsAt_or inner cs).imp id And.right

private theorem Plain.bind (first : Plain piece) (second : Plain next) : Plain fun cs => piece cs >>= next := by
  intro cs left taken
  obtain ⟨middle, one, two⟩ := Option.bind_eq_some_iff.mp taken
  obtain ⟨lead, rfl, bare⟩ := first _ _ one
  obtain ⟨more, rfl, bare'⟩ := second _ _ two
  exact ⟨lead ++ more, (List.append_assoc ..).symm, List.forall_mem_append.mpr ⟨bare, bare'⟩⟩

private theorem keyword?_plain {word : String} (bare : ∀ c ∈ word.toList, Bare c) : Plain (keyword? word) :=
  fun _ _ taken => ⟨_, keyword?_eq_some_iff.mp taken, bare⟩

theorem bare_of_isBlank {c : Char} (blank : Text.isBlank c) : Bare c := by
  refine ⟨?_, ?_, ?_⟩ <;> rintro rfl <;> exact absurd blank (by decide)

theorem bare_of_lower {word : String} (lower : word.toList.all Char.isLower) : ∀ c ∈ word.toList, Bare c := by
  intro c member
  have small : c.isLower := List.all_eq_true.mp lower c member
  refine ⟨?_, ?_, ?_⟩ <;> rintro rfl <;> exact absurd small (by decide)

private theorem bare_of_takeWhile {inClass : Char → Bool} (bare : ∀ c, inClass c → Bare c) (cs : List Char) :
    ∀ c ∈ cs.takeWhile inClass, Bare c :=
  fun c member => bare c (List.mem_takeWhile_imp member)

private theorem gap?_plain : Plain gap? := by
  intro cs left taken
  cases cs with
  | nil => cases taken
  | cons c cs =>
    simp only [gap?] at taken
    split at taken
    · next blank =>
      cases taken
      refine ⟨c :: cs.takeWhile Text.isBlank, ?_, List.forall_mem_cons.mpr ⟨bare_of_isBlank blank, ?_⟩⟩
      · rw [List.cons_append, Text.trimStart, List.takeWhile_append_dropWhile]
      · exact bare_of_takeWhile (fun c blank => bare_of_isBlank blank) cs
    · cases taken

private theorem Unclosed.append {lead cs : List Char} (bare : ∀ c ∈ lead, Bare c) (unclosed : Unclosed cs) :
    Unclosed (lead ++ cs) := by
  obtain ⟨more, quote, inner, rfl, bare', opens, within⟩ := unclosed
  have all : ∀ c ∈ lead ++ more, Bare c := List.forall_mem_append.mpr ⟨bare, bare'⟩
  exact ⟨lead ++ more, quote, inner, (List.append_assoc ..).symm, all, opens, within⟩

section Bind

variable {read : Reader α} {cs left : List Char}

private theorem stopsAt_of_none (ends : EndsAt d piece) (taken : piece cs = none) :
    StopsAt d (fun cs => piece cs >>= read) cs := by
  intro rest
  dsimp only
  rw [ends, taken]
  rfl

private theorem bind_of_taken (ends : EndsAt d piece) (taken : piece cs = some left) (rest : List Char) :
    (piece (cs ++ d :: rest) >>= read) = read (left ++ d :: rest) := by
  rw [ends, taken]
  rfl

private theorem StopsAt.bind (ends : EndsAt d piece) (taken : piece cs = some left) (stops : StopsAt d read left) :
    StopsAt d (fun cs => piece cs >>= read) cs := by
  intro rest
  dsimp only
  rw [bind_of_taken ends taken, stops, taken]
  rfl

/-- A piece without quotes in front of a reader leaves it guarded. -/
theorem Guarded.bind (ends : EndsAt d piece) (plain : Plain piece) (guarded : Guarded d read) :
    Guarded d fun cs => piece cs >>= read := by
  intro cs
  cases taken : piece cs with
  | none => exact .inl (stopsAt_of_none ends taken)
  | some left =>
    obtain ⟨lead, rfl, bare⟩ := plain _ _ taken
    exact (guarded left).imp (StopsAt.bind ends taken) (Unclosed.append bare)

private theorem Contained.bind (ends : EndsAt d piece) (contained : ∀ cs, Contained d read cs) (cs : List Char) :
    Contained d (fun cs => piece cs >>= read) cs := by
  cases taken : piece cs with
  | none => exact .inl (stopsAt_of_none ends taken)
  | some left =>
    refine (contained left).imp (StopsAt.bind ends taken) fun inLine rest name after found => ?_
    dsimp only at found
    rw [bind_of_taken ends taken] at found
    exact inLine rest name after found

end Bind

namespace Imports

/-- The clause between `import` and the module. -/
def clause? (cs : List Char) : Option (List Char) :=
  if endsInFrom (cs.takeWhile inClause) then some (cs.dropWhile inClause) else none

/-- A statement that names a module has its clause in front of the quotes. -/
theorem namesFrom?_eq (word : String) :
    namesFrom? word = fun cs => (keyword? word cs >>= clause?) >>= quotedText? := by
  funext cs
  unfold namesFrom?
  cases keyword? word cs with
  | none => rfl
  | some rest =>
    change (if _ then _ else _) = (clause? rest).bind quotedText?
    unfold clause?
    split <;> rfl

private theorem clause?_endsAt (outside : inClause d = false) : EndsAt d clause? := by
  intro cs rest
  unfold clause?
  rw [takeWhile_stop outside, dropWhile_stop outside]
  split <;> rfl

private theorem clause?_plain : Plain clause? := by
  intro cs left taken
  unfold clause? at taken
  split at taken
  · cases taken
    refine ⟨_, (List.takeWhile_append_dropWhile ..).symm, bare_of_takeWhile (fun c inside => ?_) cs⟩
    refine ⟨?_, ?_, ?_⟩ <;> rintro rfl <;> exact absurd inside (by decide)
  · cases taken

section BackQuote

variable {word : String}

private theorem namesFrom?_opening (absent : '\x60' ∉ word.toList) :
    EndsAt '\x60' fun cs => keyword? word cs >>= clause? :=
  (keyword?_endsAt absent).bind (clause?_endsAt (by decide))

/-- Beyond a back quote a statement with a clause is read only behind an open quote. -/
theorem namesFrom?_guarded (bare : ∀ c ∈ word.toList, Bare c) : Guarded '\x60' (namesFrom? word) := by
  have absent : '\x60' ∉ word.toList := fun member => (bare _ member).2.2 rfl
  have plain : Plain fun cs => keyword? word cs >>= clause? := (keyword?_plain bare).bind clause?_plain
  rw [namesFrom?_eq]
  exact .bind (namesFrom?_opening absent) plain (quotedText?_guarded (by decide))

/-- Where a statement with a clause takes a back quote along, it ends on the same line. -/
theorem namesFrom?_contained (absent : '\x60' ∉ word.toList) (cs : List Char) :
    Contained '\x60' (namesFrom? word) cs := by
  rw [namesFrom?_eq]
  exact .bind (namesFrom?_opening absent) (quotedText?_contained (by decide)) cs

private theorem bare?_opening : EndsAt '\x60' fun cs => keyword? "import" cs >>= gap? :=
  (keyword?_endsAt (by decide)).bind (gap?_endsAt (by decide))

/-- Beyond a back quote an import without a clause is read only behind an open quote. -/
theorem bare?_guarded : Guarded '\x60' bare? := by
  have plain : Plain (keyword? "import") := keyword?_plain (bare_of_lower (by decide))
  exact .bind bare?_opening (plain.bind gap?_plain) (quotedText?_guarded (by decide))

/-- Where an import without a clause takes a back quote along, it ends on the same line. -/
theorem bare?_contained : ∀ cs, Contained '\x60' bare? cs :=
  .bind bare?_opening (quotedText?_contained (by decide))

end BackQuote

end Imports

end ReviewContext.Source
