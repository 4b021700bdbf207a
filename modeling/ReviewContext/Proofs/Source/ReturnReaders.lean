import ReviewContext.Proofs.Source.Returns
import ReviewContext.Proofs.Source.Unfinished

/-! # Reading with carriage returns

To most pieces of a statement a carriage return is the blank that a newline is, or what ends the piece as a newline
does. A reader made of such pieces finds the same at the head of a text with and without its carriage returns. Two
are not: the list of siblings must end in front of a newline, where a carriage return stands, and a carriage return
can be taken for a name in front of `from`.
-/

namespace ReviewContext.Source

variable {α β γ : Type} {f : α → β} {read : Reader α} {piece next : List Char → Option (List Char)}
  {cs left : List Char}

/-! ## Runs of characters -/

section Run

variable {p : Char → Bool}

/-- To drop a class that holds the carriage return with the newline is the same in front of taking the returns out. -/
theorem dropWhile_unreturned (agrees : p '\n' → p '\r') (paired : Paired cs) :
    (unreturned cs).dropWhile p = unreturned (cs.dropWhile p) := by
  induction paired with
  | nil => rfl
  | @cons c cs other tail ih =>
    rw [unreturned_cons other]
    by_cases inside : p c
    · rw [List.dropWhile_cons_of_pos inside, List.dropWhile_cons_of_pos inside, ih]
    · rw [List.dropWhile_cons_of_neg inside, List.dropWhile_cons_of_neg inside, unreturned_cons other]
  | @pair cs tail ih =>
    rw [unreturned_return, unreturned_cons (by decide)]
    by_cases newline : p '\n'
    · rw [List.dropWhile_cons_of_pos newline, List.dropWhile_cons_of_pos (agrees newline),
        List.dropWhile_cons_of_pos newline, ih]
    · rw [List.dropWhile_cons_of_neg newline, List.dropWhile_cons]
      split
      · rw [List.dropWhile_cons_of_neg newline, unreturned_cons (by decide)]
      · rw [unreturned_return, unreturned_cons (by decide)]

theorem takeWhile_unreturned (agrees : p '\n' → p '\r') (paired : Paired cs) :
    (unreturned cs).takeWhile p = unreturned (cs.takeWhile p) := by
  induction paired with
  | nil => rfl
  | @cons c cs other tail ih =>
    rw [unreturned_cons other]
    by_cases inside : p c
    · rw [List.takeWhile_cons_of_pos inside, List.takeWhile_cons_of_pos inside, ih, unreturned_cons other]
    · rw [List.takeWhile_cons_of_neg inside, List.takeWhile_cons_of_neg inside]
      rfl
  | @pair cs tail ih =>
    rw [unreturned_return, unreturned_cons (by decide)]
    by_cases newline : p '\n'
    · rw [List.takeWhile_cons_of_pos newline, List.takeWhile_cons_of_pos (agrees newline),
        List.takeWhile_cons_of_pos newline, ih, unreturned_return, unreturned_cons (by decide)]
    · rw [List.takeWhile_cons_of_neg newline, List.takeWhile_cons]
      split
      · rw [List.takeWhile_cons_of_neg newline]
        rfl
      · rfl

theorem Paired.takeWhile (agrees : p '\r' → p '\n') (paired : Paired cs) :
    Paired (cs.takeWhile p) := by
  induction paired with
  | nil => exact .nil
  | @cons c cs other tail ih =>
    rw [List.takeWhile_cons]
    split
    · exact .cons other ih
    · exact .nil
  | @pair cs tail ih =>
    rw [List.takeWhile_cons]
    split
    · next inside =>
      rw [List.takeWhile_cons_of_pos (agrees inside)]
      exact .pair ih
    · exact .nil

/-- The class holds no end of a line. -/
structure InLine (p : Char → Bool) : Prop where
  return_ : p '\r' = false
  newline : p '\n' = false

private theorem InLine.agrees (inLine : InLine p) : p '\n' → p '\r' := by
  rw [inLine.newline]
  exact nofun

private theorem InLine.absent (inLine : InLine p) (cs : List Char) : '\r' ∉ cs.takeWhile p := by
  intro member
  have inside := List.mem_takeWhile_imp member
  rw [inLine.return_] at inside
  cases inside

private theorem InLine.takeWhile_eq (inLine : InLine p) (paired : Paired cs) :
    (unreturned cs).takeWhile p = cs.takeWhile p := by
  rw [takeWhile_unreturned inLine.agrees paired, unreturned_eq_self (inLine.absent cs)]

theorem inLine_isWord : InLine Text.isWord :=
  ⟨by decide, by decide⟩

end Run

theorem Paired.newline (paired : Paired ('\r' :: cs)) : ∃ more, cs = '\n' :: more := by
  cases paired with
  | cons other tail => exact absurd rfl other
  | pair tail => exact ⟨_, rfl⟩

/-- On a line that something else follows there is no carriage return. -/
theorem Paired.absent {d : Char} {rest : List Char} (paired : Paired (cs ++ d :: rest)) (solid : d ≠ '\n')
    (inLine : '\n' ∉ cs) : '\r' ∉ cs := by
  induction cs with
  | nil => exact List.not_mem_nil
  | cons c cs ih =>
    obtain ⟨-, later⟩ := not_or.mp (mt List.mem_cons.mpr inLine)
    rw [List.mem_cons, not_or]
    refine ⟨?_, ih paired.tail later⟩
    rintro rfl
    obtain ⟨more, whole⟩ := Paired.newline paired
    cases cs with
    | nil => exact solid (List.cons.inj whole).1
    | cons e cs =>
      obtain ⟨rfl, -⟩ := List.cons.inj whole
      exact later List.mem_cons_self

theorem Paired.before {d : Char} {rest : List Char} (paired : Paired (cs ++ d :: rest)) (solid : d ≠ '\n') :
    Paired cs := by
  induction cs with
  | nil => exact .nil
  | cons c cs ih =>
    have later := ih paired.tail
    by_cases return_ : c = '\r'
    · subst return_
      obtain ⟨more, whole⟩ := Paired.newline paired
      cases cs with
      | nil => exact absurd (List.cons.inj whole).1 solid
      | cons e cs =>
        obtain ⟨rfl, -⟩ := List.cons.inj whole
        exact .pair later.tail
    · exact .cons return_ later

/-- A text does not consist of carriage returns only. -/
theorem Paired.eq_nil (paired : Paired cs) (empty : unreturned cs = []) : cs = [] := by
  cases paired with
  | nil => rfl
  | cons other tail =>
    rw [unreturned_cons other] at empty
    cases empty
  | pair tail =>
    rw [unreturned_return, unreturned_cons (by decide)] at empty
    cases empty

/-! ## Pieces -/

/-- At the head of this text the piece takes the same with and without carriage returns. -/
structure SteadyPiece (piece : List Char → Option (List Char)) (cs : List Char) : Prop where
  ends : ∀ left, piece cs = some left → left <:+ cs
  same : piece (unreturned cs) = (piece cs).map unreturned

/-- Steady pieces compose, the second being steady on what the first leaves. -/
theorem SteadyPiece.bind (first : SteadyPiece piece cs) (paired : Paired cs)
    (second : ∀ left, piece cs = some left → Paired left → SteadyPiece next left) :
    SteadyPiece (fun cs => piece cs >>= next) cs := by
  constructor
  · intro left taken
    obtain ⟨middle, one, two⟩ := Option.bind_eq_some_iff.mp taken
    have ends := first.ends middle one
    exact ((second middle one (paired.suffix ends)).ends left two).trans ends
  · rw [first.same]
    cases taken : piece cs with
    | none => rfl
    | some middle => exact (second middle taken (paired.suffix (first.ends middle taken))).same

theorem SteadyPiece.comp {skip : List Char → List Char} (next : List Char → Option (List Char))
    (skipped : SteadyPiece (fun cs => some (skip cs)) cs) (paired : Paired cs)
    (second : ∀ left, Paired left → SteadyPiece next left) : SteadyPiece (fun cs => next (skip cs)) cs :=
  skipped.bind paired fun left _ => second left

theorem SteadyPiece.map {skip : List Char → List Char} (first : SteadyPiece piece cs) (paired : Paired cs)
    (skipped : ∀ left, Paired left → SteadyPiece (fun cs => some (skip cs)) left) :
    SteadyPiece (fun cs => (piece cs).map skip) cs := by
  have same : (fun cs => (piece cs).map skip) = fun cs => piece cs >>= fun left => some (skip left) := by
    funext cs
    cases piece cs <;> rfl
  rw [same]
  exact first.bind paired fun left _ => skipped left

/-- A condition that carriage returns do not change keeps a piece steady. -/
theorem SteadyPiece.filter {p : List Char → Bool} (steady : SteadyPiece piece cs)
    (agrees : ∀ left, piece cs = some left → p (unreturned left) = p left) :
    SteadyPiece (fun cs => (piece cs).filter p) cs := by
  constructor
  · intro left taken
    exact steady.ends left (Option.filter_eq_some_iff.mp taken).1
  · rw [steady.same]
    cases taken : piece cs with
    | none => rfl
    | some left =>
      rw [Option.map_some, Option.filter_some, Option.filter_some, agrees left taken]
      split <;> rfl

/-- A keyword without ends of lines is the same with and without carriage returns. -/
theorem keyword?_steady {word : String} (inLine : '\n' ∉ word.toList ∧ '\r' ∉ word.toList) (paired : Paired cs) :
    SteadyPiece (keyword? word) cs := by
  constructor
  · intro left taken
    rw [keyword?_eq_some_iff.mp taken]
    exact List.suffix_append ..
  · unfold keyword?
    generalize word.toList = marks at inLine
    obtain ⟨newline, return_⟩ := inLine
    induction marks generalizing cs with
    | nil => rfl
    | cons mark marks ih =>
      obtain ⟨newline_ne, newline⟩ := not_or.mp (mt List.mem_cons.mpr newline)
      obtain ⟨return_ne, return_⟩ := not_or.mp (mt List.mem_cons.mpr return_)
      cases paired with
      | nil => rfl
      | @cons c cs other tail =>
        rw [unreturned_cons other]
        simp only [List.isPrefixOf?]
        split
        · exact ih tail newline return_
        · rfl
      | pair tail =>
        rw [unreturned_return, unreturned_cons (by decide)]
        simp [List.isPrefixOf?, Ne.symm newline_ne, Ne.symm return_ne]

/-- A part of the text is left out, whatever stands in it. -/
theorem dropWhile_steady {p : Char → Bool} (agrees : p '\n' → p '\r') (paired : Paired cs) :
    SteadyPiece (fun cs => some (cs.dropWhile p)) cs := by
  constructor
  · rintro left ⟨⟩
    exact List.dropWhile_suffix _
  · exact congrArg some (dropWhile_unreturned agrees paired)

/-- Carriage returns are blanks, and dropped with the others. -/
theorem trimStart_steady (paired : Paired cs) : SteadyPiece (fun cs => some (Text.trimStart cs)) cs :=
  dropWhile_steady (by decide) paired

/-- A gap is one with and without carriage returns, since a newline is left of each. -/
theorem gap?_steady (paired : Paired cs) : SteadyPiece gap? cs := by
  constructor
  · intro left taken
    cases cs with
    | nil => cases taken
    | cons c cs =>
      obtain ⟨-, same⟩ := Option.ite_none_right_eq_some.mp taken
      obtain rfl := Option.some.inj same
      exact (List.dropWhile_suffix _).trans (List.suffix_cons c cs)
  · cases paired with
    | nil => rfl
    | @cons c cs other tail =>
      have trimmed := (trimStart_steady tail).same
      rw [unreturned_cons other, gap?, gap?]
      split
      · exact trimmed
      · rfl
    | pair tail => exact (trimStart_steady tail).same

theorem keyword_gap_steady {word : String} (inLine : '\n' ∉ word.toList ∧ '\r' ∉ word.toList) (paired : Paired cs) :
    SteadyPiece (fun cs => keyword? word cs >>= gap?) cs :=
  (keyword?_steady inLine paired).bind paired fun _ _ => gap?_steady

private theorem oneOf?_steady {keywords : List String}
    (inLine : ∀ word ∈ keywords, '\n' ∉ word.toList ∧ '\r' ∉ word.toList)
    (paired : Paired cs) : SteadyPiece (oneOf? keywords) cs := by
  unfold oneOf?
  induction keywords with
  | nil => exact ⟨nofun, rfl⟩
  | cons word keywords ih =>
    have head := keyword_gap_steady (inLine word List.mem_cons_self) paired
    have tail := ih fun other member => inLine other (List.mem_cons_of_mem word member)
    constructor
    · intro left taken
      rw [List.findSome?_cons] at taken
      split at taken
      · next found =>
        exact head.ends left (found.trans taken)
      · exact tail.ends left taken
    · rw [List.findSome?_cons, List.findSome?_cons, head.same, tail.same]
      cases keyword? word cs >>= gap? <;> rfl

/-- What stands in parentheses, if the text starts with one, and the gap behind it. -/
def enclosed? (inside : Char → Bool) (cs : List Char) : Option (List Char) :=
  match cs with
  | '(' :: more => keyword? ")" (more.dropWhile inside) >>= gap?
  | _ => gap? cs

private theorem enclosed?_of_other {inside : Char → Bool}
    (other : cs.head? ≠ some '(') : enclosed? inside cs = gap? cs := by
  unfold enclosed?
  split
  · exact absurd rfl other
  · rfl

theorem enclosed?_steady {inside : Char → Bool} (agrees : inside '\n' → inside '\r') (paired : Paired cs) :
    SteadyPiece (enclosed? inside) cs := by
  by_cases opens : cs.head? = some '('
  · obtain ⟨more, rfl⟩ := List.head?_eq_some_iff.mp opens
    have inner : SteadyPiece (fun cs => keyword? ")" (cs.dropWhile inside) >>= gap?) more :=
      .comp (fun cs => keyword? ")" cs >>= gap?) (dropWhile_steady agrees paired.tail) paired.tail
        fun _ => keyword_gap_steady (by decide)
    refine ⟨fun left taken => (inner.ends left taken).trans (List.suffix_cons '(' more), ?_⟩
    rw [unreturned_cons (by decide)]
    exact inner.same
  · have opens' : (unreturned cs).head? ≠ some '(' := by
      cases paired with
      | nil => exact opens
      | cons other tail =>
        rw [unreturned_cons other]
        exact opens
      | pair tail =>
        rw [unreturned_return, unreturned_cons (by decide), List.head?_cons]
        decide
    have gap := gap?_steady paired
    constructor
    · rw [enclosed?_of_other opens]
      exact gap.ends
    · rw [enclosed?_of_other opens, enclosed?_of_other opens']
      exact gap.same

private theorem enclosed?_shortens (inside : Char → Bool) : Shortens (enclosed? inside) := by
  intro cs left taken
  unfold enclosed? at taken
  split at taken
  · next more =>
    obtain ⟨middle, first, second⟩ := Option.bind_eq_some_iff.mp taken
    have shorter := gap?_shortens _ _ second
    have length := (List.dropWhile_suffix inside (l := more)).length_le
    rw [keyword?_eq_some_iff.mp first, List.length_append] at length
    rw [List.length_cons]
    omega
  · exact gap?_shortens _ _ taken

private theorem SteadyPiece.orElse (first : SteadyPiece piece cs) (second : SteadyPiece next cs) :
    SteadyPiece (fun cs => piece cs <|> next cs) cs := by
  constructor
  · intro left taken
    cases found : piece cs with
    | none =>
      rw [found] at taken
      exact second.ends left taken
    | some middle =>
      rw [found] at taken
      obtain rfl := Option.some.inj taken
      exact first.ends _ found
  · rw [first.same, second.same]
    cases piece cs <;> rfl

theorem SteadyPiece.optional (steady : SteadyPiece piece cs) :
    SteadyPiece (fun cs => some (optional piece cs)) cs := by
  unfold Source.optional
  constructor
  · rintro left ⟨⟩
    cases taken : piece cs with
    | none => exact List.suffix_rfl
    | some left => exact steady.ends left taken
  · rw [steady.same]
    cases piece cs <;> rfl

private theorem repeated_steady (steady : ∀ cs, Paired cs → SteadyPiece piece cs) (shortens : Shortens piece)
    {bound : Nat}
    (paired : Paired cs) (enough : cs.length ≤ bound) {bound' : Nat} (enough' : (unreturned cs).length ≤ bound') :
    repeated piece bound' (unreturned cs) = unreturned (repeated piece bound cs) ∧ repeated piece bound cs <:+ cs := by
  have nothing : piece [] = none := by
    cases taken : piece [] with
    | none => rfl
    | some left => exact absurd (shortens _ _ taken) (Nat.not_lt_zero _)
  have idle (bound : Nat) : repeated piece bound [] = [] := by
    cases bound with
    | zero => rfl
    | succ bound => rw [repeated, nothing]
  induction bound generalizing cs bound' with
  | zero =>
    obtain rfl := List.eq_nil_of_length_eq_zero (Nat.le_zero.mp enough)
    exact ⟨idle bound', List.suffix_rfl⟩
  | succ bound ih =>
    cases bound' with
    | zero =>
      obtain rfl := paired.eq_nil (List.eq_nil_of_length_eq_zero (Nat.le_zero.mp enough'))
      rw [idle]
      exact ⟨rfl, List.suffix_rfl⟩
    | succ bound' =>
      have here := steady cs paired
      rw [repeated, repeated, here.same]
      cases taken : piece cs with
      | none => exact ⟨rfl, List.suffix_rfl⟩
      | some left =>
        have taken' : piece (unreturned cs) = some (unreturned left) := by rw [here.same, taken]; rfl
        have shorter := shortens _ _ taken
        have shorter' := shortens _ _ taken'
        have ends := here.ends left taken
        obtain ⟨same, later⟩ := ih (paired.suffix ends) (by omega) (show (unreturned left).length ≤ bound' by omega)
        exact ⟨same, later.trans ends⟩

private theorem many_steady (steady : ∀ cs, Paired cs → SteadyPiece piece cs) (shortens : Shortens piece)
    (paired : Paired cs) : SteadyPiece (fun cs => some (many piece cs)) cs := by
  obtain ⟨same, ends⟩ := repeated_steady steady shortens paired (Nat.le_refl _) (Nat.le_refl _)
  constructor
  · rintro left ⟨⟩
    exact ends
  · exact congrArg some same

/-! ## Readers -/

/-- At the head of this text the reader finds the same with and without carriage returns, as far as `f` tells. -/
structure Steady (f : α → β) (read : Reader α) (cs : List Char) : Prop where
  ends : ∀ name left, read cs = some (name, left) → left <:+ cs.tail
  same : (read (unreturned cs)).map (Prod.map f id) = (read cs).map (Prod.map f unreturned)

theorem suffix_tail {middle : List Char} (ends : left <:+ middle.tail) (inner : middle <:+ cs) : left <:+ cs.tail := by
  obtain ⟨front, rfl⟩ := inner
  cases front with
  | nil => exact ends
  | cons c front => exact (ends.trans (List.tail_suffix middle)).trans (List.suffix_append ..)

/-- A reader behind a steady piece is steady if it is so on what the piece leaves. -/
theorem Steady.bind (first : SteadyPiece piece cs) (paired : Paired cs)
    (second : ∀ left, piece cs = some left → Paired left → Steady f read left) :
    Steady f (fun cs => piece cs >>= read) cs := by
  constructor
  · intro name left found
    obtain ⟨middle, one, two⟩ := Option.bind_eq_some_iff.mp found
    have ends := first.ends middle one
    exact suffix_tail ((second middle one (paired.suffix ends)).ends name left two) ends
  · rw [first.same]
    cases taken : piece cs with
    | none => rfl
    | some middle => exact (second middle taken (paired.suffix (first.ends middle taken))).same

theorem Steady.comp {skip : List Char → List Char} (read : Reader α)
    (skipped : SteadyPiece (fun cs => some (skip cs)) cs) (paired : Paired cs)
    (second : ∀ left, Paired left → Steady f read left) : Steady f (fun cs => read (skip cs)) cs :=
  Steady.bind skipped paired fun left _ => second left

theorem Steady.mono (steady : Steady id read cs) (f : α → β) : Steady f read cs := by
  refine ⟨steady.ends, ?_⟩
  have same := congrArg (Option.map (Prod.map f id)) steady.same
  rw [Option.map_map, Option.map_map] at same
  exact same

/-- Where nothing is found with carriage returns, nothing is found without. -/
theorem Steady.silent (steady : Steady f read cs) (nothing : read cs = none) : read (unreturned cs) = none := by
  have same := steady.same
  rw [nothing] at same
  exact Option.map_eq_none_iff.mp same

/-- What is found with carriage returns is found without, and alike as far as `f` tells. -/
theorem Steady.finds (steady : Steady f read cs) {name : α} (found : read cs = some (name, left)) :
    ∃ name', read (unreturned cs) = some (name', unreturned left) ∧ f name' = f name := by
  have same := steady.same
  rw [found] at same
  obtain ⟨⟨name', left'⟩, found', alike⟩ := Option.map_eq_some_iff.mp same
  obtain ⟨named, rest⟩ := Prod.mk.inj alike
  obtain rfl : left' = unreturned left := rest
  exact ⟨name', found', named⟩

/-- What is left behind what the reader finds. -/
theorem Steady.behind (steady : Steady f read cs) : SteadyPiece (fun cs => (read cs).map (·.2)) cs := by
  constructor
  · intro left taken
    obtain ⟨⟨name, rest⟩, found, rfl⟩ := Option.map_eq_some_iff.mp taken
    exact (steady.ends name rest found).trans (List.tail_suffix cs)
  · have same := congrArg (Option.map (·.2)) steady.same
    rw [Option.map_map, Option.map_map] at same
    rw [Option.map_map]
    exact same

/-- A statement that goes on behind what the reader finds. -/
theorem Steady.followed {g : α → γ} {f : γ → β} (steady : Steady (f ∘ g) read cs) (paired : Paired cs)
    (second : ∀ left, Paired left → SteadyPiece piece left) :
    Steady f (fun cs => (read cs).bind fun out => (piece out.2).map (g out.1, ·)) cs := by
  constructor
  · intro name left found
    obtain ⟨⟨_, middle⟩, one, two⟩ := Option.bind_eq_some_iff.mp found
    obtain ⟨after, taken, same⟩ := Option.map_eq_some_iff.mp two
    obtain ⟨rfl, rfl⟩ := Prod.mk.inj same
    have ends := steady.ends _ middle one
    have inner := (second middle (paired.suffix (ends.trans (List.tail_suffix cs)))).ends after taken
    exact inner.trans ends
  · cases found : read cs with
    | none => rw [steady.silent found]; rfl
    | some out =>
      obtain ⟨name, middle⟩ := out
      obtain ⟨name', found', named⟩ := steady.finds found
      have ends := (steady.ends name middle found).trans (List.tail_suffix cs)
      have behind := (second middle (paired.suffix ends)).same
      rw [found']
      simp only [Option.bind_some]
      rw [behind]
      cases piece middle with
      | none => rfl
      | some after => exact congrArg (fun name => Option.some (name, unreturned after)) named

/-- One statement of two parts, each of which names something. -/
theorem Steady.both {read' : Reader β} (steady : Steady id read cs) (paired : Paired cs)
    (second : ∀ left, Paired left → Steady id read' left) :
    Steady id (fun cs => (read cs).bind fun out => (read' out.2).map fun out' => ((out.1, out'.1), out'.2)) cs := by
  constructor
  · intro name left found
    obtain ⟨⟨_, middle⟩, one, two⟩ := Option.bind_eq_some_iff.mp found
    obtain ⟨⟨_, after⟩, three, same⟩ := Option.map_eq_some_iff.mp two
    obtain ⟨-, rfl⟩ := Prod.mk.inj same
    have ends := steady.ends _ middle one
    have inner := (second middle (paired.suffix (ends.trans (List.tail_suffix cs)))).ends _ after three
    exact (inner.trans (List.tail_suffix middle)).trans ends
  · cases found : read cs with
    | none => rw [steady.silent found]; rfl
    | some out =>
      obtain ⟨name, middle⟩ := out
      obtain ⟨name', found', named⟩ := steady.finds found
      have ends := (steady.ends name middle found).trans (List.tail_suffix cs)
      have behind := (second middle (paired.suffix ends)).same
      rw [Prod.map_id] at behind
      obtain rfl : name' = name := named
      rw [found']
      simp only [Option.bind_some, Prod.map_id, Option.map_id, id] at behind ⊢
      rw [behind]
      cases read' middle <;> rfl

theorem Steady.filter {p : List Char → Bool} (steady : Steady f read cs)
    (agrees : ∀ name left, read cs = some (name, left) → p (unreturned left) = p left) :
    Steady f (fun cs => (read cs).filter (p ·.2)) cs := by
  constructor
  · intro name left found
    exact steady.ends name left (Option.filter_eq_some_iff.mp found).1
  · cases found : read cs with
    | none => rw [steady.silent found]; rfl
    | some out =>
      obtain ⟨name, left⟩ := out
      obtain ⟨name', found', named⟩ := steady.finds found
      rw [found', Option.filter_some, Option.filter_some, agrees name left found]
      split
      · exact congrArg (fun name => Option.some (name, unreturned left)) named
      · rfl

/-- A run of a class without ends of lines is the same with and without carriage returns. -/
theorem run?_steady {p : Char → Bool} (inLine : InLine p) (paired : Paired cs) : Steady id (run? p) cs := by
  constructor
  · intro name left found
    rw [run?_eq] at found
    split at found
    · cases found
    · next some =>
      cases found
      cases cs with
      | nil => exact absurd rfl some
      | cons c cs =>
        have inside : p c := by
          by_contra outside
          exact some (List.takeWhile_cons_of_neg outside)
        rw [List.dropWhile_cons_of_pos inside]
        exact List.dropWhile_suffix p
  · rw [run?_eq, run?_eq, inLine.takeWhile_eq paired, dropWhile_unreturned inLine.agrees paired]
    split <;> rfl

private theorem typeName?_steady {inName : Char → Bool} (inLine : InLine inName) (paired : Paired cs) :
    Steady id (typeName? inName) cs := by
  constructor
  · intro name left found
    cases cs with
    | nil => cases found
    | cons c cs =>
      obtain ⟨-, same⟩ := Option.ite_none_right_eq_some.mp found
      cases same
      exact List.dropWhile_suffix inName
  · cases paired with
    | nil => rfl
    | @cons c cs other tail =>
      rw [unreturned_cons other, typeName?, typeName?, inLine.takeWhile_eq tail,
        dropWhile_unreturned inLine.agrees tail]
      split <;> rfl
    | pair tail => rfl

theorem forall_mem_unreturned {p : Char → Prop} (all : ∀ c ∈ cs, p c) : ∀ c ∈ unreturned cs, p c :=
  fun c member => all c (List.mem_filter.mp member).1

theorem quotedText?_steady (paired : Paired cs) : Steady id quotedText? cs := by
  constructor
  · intro name left found
    obtain ⟨quote, close, rfl, -⟩ := quotedText?_eq_some_iff.mp found
    exact List.suffix_append_of_suffix (List.suffix_cons close left)
  · cases paired with
    | nil => rfl
    | pair tail => rfl
    | @cons quote cs other tail =>
      rw [unreturned_cons other]
      rcases all_or_exists_first inQuotes cs with all | ⟨lead, close, rest, rfl, within, outside⟩
      · rw [quotedText?_of_open all, quotedText?_of_open (forall_mem_unreturned all)]
        rfl
      · have solid : close ≠ '\r' := by
          rintro rfl
          exact outside rfl
        rw [unreturned_append, unreturned_cons solid, quotedText?_of_closed within outside,
          quotedText?_of_closed (forall_mem_unreturned within) outside]
        by_cases closes : isQuote close
        · have newline : close ≠ '\n' := by
            rintro rfl
            exact absurd closes (by decide)
          have inLine : '\n' ∉ lead := fun member => absurd (within _ member) (by decide)
          rw [unreturned_eq_self (tail.absent newline inLine)]
          split <;> rfl
        · rw [if_neg fun all => closes all.2.2, if_neg fun all => closes all.2.2]
          rfl

namespace Exports

/-! ## Exports -/

private theorem inLine_inScriptName : InLine inScriptName :=
  ⟨by decide, by decide⟩

private theorem modifiers_steady {words : List String}
    (inLine : ∀ word ∈ words, '\n' ∉ word.toList ∧ '\r' ∉ word.toList)
    (paired : Paired cs) :
    SteadyPiece (fun cs => some (words.foldl (fun rest modifier => optional (oneOf? [modifier]) rest) cs)) cs := by
  induction words generalizing cs with
  | nil => exact ⟨fun left taken => Option.some.inj taken ▸ List.suffix_rfl, rfl⟩
  | cons word words ih =>
    have first : SteadyPiece (oneOf? [word]) cs := by
      apply oneOf?_steady _ paired
      intro other member
      rw [List.mem_singleton.mp member]
      exact inLine word List.mem_cons_self
    exact first.optional.bind paired fun _ _ => ih fun other member => inLine other (List.mem_cons_of_mem word member)

/-- The name of a declaration behind its kind. -/
theorem kind_steady {kinds : List String} {inName : Char → Bool}
    (inLine : ∀ word ∈ kinds, '\n' ∉ word.toList ∧ '\r' ∉ word.toList) (named : InLine inName) (paired : Paired cs) :
    Steady id (fun cs => oneOf? kinds cs >>= typeName? inName) cs :=
  .bind (oneOf?_steady inLine paired) paired fun _ _ => typeName?_steady named

theorem script?_steady (paired : Paired cs) : Steady id script? cs := by
  refine Steady.bind (oneOf?_steady (by decide) paired) paired fun rest _ paired => ?_
  refine Steady.comp (fun rest => oneOf? _ rest >>= typeName? inScriptName) (modifiers_steady (by decide) paired)
    paired fun rest paired => ?_
  exact kind_steady (by decide) inLine_inScriptName paired

private theorem startsUpper_unreturned (paired : Paired cs) : startsUpper (unreturned cs) = startsUpper cs := by
  cases paired with
  | nil => rfl
  | cons other tail => rw [unreturned_cons other]; rfl
  | pair tail => rfl

theorem pub?_steady (paired : Paired cs) : Steady id pub? cs := by
  refine Steady.bind (oneOf?_steady (by decide) paired) paired fun rest _ paired => ?_
  refine Steady.comp (fun rest => oneOf? _ rest >>= typeName? Text.isWord) (many_steady ?_ ?_ paired) paired
    fun rest paired => ?_
  · intro cs paired
    have inLine : ∀ word ∈ ["async", "const", "unsafe"], '\n' ∉ word.toList ∧ '\r' ∉ word.toList := by decide
    have steady := oneOf?_steady inLine paired
    apply steady.filter
    intro left taken
    rw [startsUpper_unreturned (paired.suffix (steady.ends left taken))]
  · intro cs left taken
    exact oneOf?_shortens _ _ _ (Option.filter_eq_some_iff.mp taken).1
  · exact kind_steady (by decide) inLine_isWord paired

theorem declaration?_steady {modifiers kinds : List String}
    (inLine : ∀ word ∈ modifiers ++ kinds, '\n' ∉ word.toList ∧ '\r' ∉ word.toList) (paired : Paired cs) :
    Steady id (declaration? modifiers kinds) cs := by
  have modifiers_inLine := fun word member => inLine word (List.mem_append_left kinds member)
  have kinds_inLine := fun word member => inLine word (List.mem_append_right modifiers member)
  have skipped := many_steady (fun cs => oneOf?_steady modifiers_inLine) (oneOf?_shortens modifiers) paired
  exact .comp (fun rest => oneOf? kinds rest >>= typeName? Text.isWord) skipped paired
    fun rest => kind_steady kinds_inLine inLine_isWord

/-- The name of an attribute. -/
def attributeName? (cs : List Char) : Option (List Char) :=
  (keyword? "@" cs).bind fun rest => (run? Text.isWord rest).map (·.2)

private theorem attribute?_eq :
    attribute? = fun cs => attributeName? cs >>= enclosed? fun c => c != ')' && c != '\n' := by
  funext cs
  unfold attribute? attributeName?
  cases keyword? "@" cs with
  | none => rfl
  | some rest =>
    change (run? Text.isWord rest).bind _ = ((run? Text.isWord rest).map _).bind _
    cases run? Text.isWord rest with
    | none => rfl
    | some out => rfl

private theorem attribute?_steady (paired : Paired cs) : SteadyPiece attribute? cs := by
  have name : SteadyPiece attributeName? cs := by
    refine (keyword?_steady (by decide) paired).bind paired fun rest _ paired => ?_
    exact (run?_steady inLine_isWord paired).behind
  rw [attribute?_eq]
  exact name.bind paired fun _ _ => enclosed?_steady (by decide)

private theorem attribute?_shortens : Shortens attribute? := by
  intro cs left taken
  rw [attribute?_eq] at taken
  obtain ⟨middle, first, second⟩ := Option.bind_eq_some_iff.mp taken
  obtain ⟨rest, keyword, run⟩ := Option.bind_eq_some_iff.mp first
  obtain ⟨out, found, rfl⟩ := Option.map_eq_some_iff.mp run
  have shorter := enclosed?_shortens _ _ _ second
  rw [run?_eq] at found
  split at found
  · cases found
  · obtain rfl := Option.some.inj found
    have length := (List.dropWhile_suffix Text.isWord (l := rest)).length_le
    rw [keyword?_eq_some_iff.mp keyword, List.length_append]
    exact Nat.lt_of_lt_of_le shorter (Nat.le_trans length (Nat.le_add_left ..))

theorem attributed?_steady (paired : Paired cs) : Steady id attributed? cs := by
  refine Steady.comp (fun rest => oneOf? _ rest >>= declaration? _ _)
    (many_steady (fun cs => attribute?_steady) attribute?_shortens paired) paired fun rest paired => ?_
  refine Steady.bind (oneOf?_steady (by decide) paired) paired fun rest _ paired => ?_
  exact declaration?_steady (by decide) paired

theorem implicit?_steady (paired : Paired cs) : Steady id implicit? cs := by
  refine Steady.comp (declaration? _ _) (oneOf?_steady (by decide) paired).optional paired fun rest paired => ?_
  exact declaration?_steady (by decide) paired

theorem explicit?_steady (paired : Paired cs) : Steady id explicit? cs := by
  refine Steady.bind (oneOf?_steady (by decide) paired) paired fun rest _ paired => ?_
  exact declaration?_steady (by decide) paired

theorem toplevel?_steady (paired : Paired cs) : Steady id toplevel? cs := by
  have later : SteadyPiece (fun cs => oneOf? ["async"] cs >>= oneOf? ["def"]) cs :=
    (oneOf?_steady (by decide) paired).bind paired fun _ _ => oneOf?_steady (by decide)
  have kind : SteadyPiece (fun cs => oneOf? ["class", "def"] cs <|> (oneOf? ["async"] cs >>= oneOf? ["def"])) cs :=
    (oneOf?_steady (by decide) paired).orElse later
  exact Steady.bind kind paired fun _ _ => typeName?_steady inLine_isWord

end Exports

end ReviewContext.Source
