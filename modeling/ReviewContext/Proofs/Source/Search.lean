import ReviewContext.Proofs.Source.Reading

/-! # Searching around a literal

The search for statements comes out of a literal as it would have come out of any other: what starts in it is
dropped, and what takes some of the text behind it takes no line there. So the statements of a text are those in
front of the literal and those behind it.
-/

namespace ReviewContext.Source

variable {α : Type} {anchor : Anchor} {indent : Char → Bool} {read : Reader α} {d : Char}

/-! ## One step of the search -/

section Step

variable {opens : Bool} {c : Char} {cs left : List Char} {quoted : List Bool} {name : α}

/-- Where no statement is found, the search goes on with the next character. -/
theorem statementsFrom_passed (nothing : (if opens then read (c :: cs) else none) = none) :
    statementsFrom anchor read opens 0 (c :: cs) quoted =
      statementsFrom anchor read (anchor.opensAfter opens c) 0 cs quoted.tail := by
  rw [statementsFrom, nothing]

/-- A statement gives its name, unless it starts in a literal, and the search goes on behind it. -/
theorem statementsFrom_found (found : (if opens then read (c :: cs) else none) = some (name, left)) :
    statementsFrom anchor read opens 0 (c :: cs) quoted = (if quoted.headD false then [] else [name]) ++
      statementsFrom anchor read anchor.opensAfterStatement (cs.length - left.length) cs quoted.tail := by
  rw [statementsFrom, found]
  dsimp only
  split <;> rfl

end Step

/-- The text of a statement that was found is passed over. -/
theorem statementsFrom_skip (opens : Bool) (skipped : List Char) (more : Nat) (cs : List Char)
    (quoted : List Bool) : statementsFrom anchor read opens (skipped.length + more) (skipped ++ cs) quoted =
      statementsFrom anchor read opens more cs (quoted.drop skipped.length) := by
  induction skipped generalizing quoted with
  | nil => rw [List.length_nil, Nat.zero_add, List.nil_append, List.drop_zero]
  | cons c skipped ih =>
    rw [List.length_cons, Nat.add_right_comm, List.cons_append, statementsFrom, ih, List.drop_tail]

/-! ## Statements at the start of a line -/

theorem opensAfter_eq_false {c : Char} (newline : c ≠ '\n') (solid : indent c = false) (opens : Bool) :
    (Anchor.line indent).opensAfter opens c = false := by
  simp [Anchor.opensAfter, newline, solid]

/-- Where no statement may start, none is found before the next line, wherever the one before ends. -/
theorem statementsFrom_inLine {line : List Char} (inLine : '\n' ∉ line) {skip : Nat} (short : skip ≤ line.length)
    (cs : List Char) (quoted : List Bool) :
    statementsFrom (.line indent) read false skip (line ++ cs) quoted =
      statementsFrom (.line indent) read false 0 cs (quoted.drop line.length) := by
  induction line generalizing skip quoted with
  | nil =>
    obtain rfl := Nat.le_zero.mp short
    rfl
  | cons c line ih =>
    obtain ⟨other, inLine⟩ := not_or.mp (mt List.mem_cons.mpr inLine)
    have shut : (Anchor.line indent).opensAfter false c = false := by
      simp [Anchor.opensAfter, Ne.symm other]
    rw [List.cons_append, List.length_cons, ← List.drop_tail]
    cases skip with
    | zero =>
      rw [statementsFrom_passed (if_neg Bool.false_ne_true), shut]
      exact ih inLine (Nat.zero_le _) quoted.tail
    | succ skip =>
      rw [statementsFrom]
      exact ih inLine (Nat.le_of_succ_le_succ short) quoted.tail

/-- A statement that ends on a line leaves the search as it was on that line. -/
theorem statementsFrom_crossed {crossed : List Char} (inLine : '\n' ∉ crossed) (skipped left : List Char)
    (quoted : List Bool) :
    statementsFrom (.line indent) read false ((skipped ++ (crossed ++ left)).length - left.length)
        (skipped ++ (crossed ++ left)) quoted =
      statementsFrom (.line indent) read false 0 (crossed ++ left) (quoted.drop skipped.length) := by
  rw [List.length_append, List.length_append, ← Nat.add_assoc, Nat.add_sub_cancel, statementsFrom_skip,
    statementsFrom_inLine inLine (Nat.le_refl _), statementsFrom_inLine inLine (Nat.zero_le _)]

/-- From the head of `cs` to the `d` behind it no statement is found if none may start there. Some of the text may
still belong to the one before. -/
def Shut (indent : Char → Bool) (read : Reader α) (d : Char) (cs : List Char) (marks : List Bool) : Prop :=
  ∀ rest quoted skip, skip ≤ cs.length →
    statementsFrom (.line indent) read false skip (cs ++ d :: rest) (marks ++ true :: quoted) =
      statementsFrom (.line indent) read false 0 rest quoted

/-- From the head of `cs` to the `d` behind it no statement is found, and none may start behind it on its line. -/
structure Quiet (indent : Char → Bool) (read : Reader α) (d : Char) (cs : List Char) (marks : List Bool) :
    Prop where
  shut : Shut indent read d cs marks
  passed : ∀ rest quoted opens,
    statementsFrom (.line indent) read opens 0 (cs ++ d :: rest) (marks ++ true :: quoted) =
      statementsFrom (.line indent) read false 0 rest quoted

private theorem drop_marks {cs : List Char} {marks : List Bool} (same : marks.length = cs.length) (quoted : List Bool) :
    (marks ++ true :: quoted).drop (cs ++ [d]).length = quoted := by
  rw [List.length_append, List.length_singleton, ← same, List.append_cons, List.drop_left' (by simp)]

private theorem shut_line {line : List Char} {marks : List Bool} (newline : d ≠ '\n') (inLine : '\n' ∉ line)
    (same : marks.length = line.length) : Shut indent read d line marks := by
  intro rest quoted skip short
  have inLine : '\n' ∉ line ++ [d] := by simp [inLine, Ne.symm newline]
  have short : skip ≤ (line ++ [d]).length := by
    rw [List.length_append]
    omega
  rw [List.append_cons, statementsFrom_inLine inLine short, drop_marks same]

private theorem Contained.left {cs rest left : List Char} {name : α} (contained : Contained d read cs)
    (found : read (cs ++ d :: rest) = some (name, left)) :
    (∃ more, left = more ++ d :: rest) ∨ ∃ crossed, rest = crossed ++ left ∧ '\n' ∉ crossed := by
  rcases contained with stops | inLine
  · rw [stops] at found
    obtain ⟨⟨other, more⟩, _, same⟩ := Option.map_eq_some_iff.mp found
    exact .inl ⟨more, (Prod.mk.inj same).2.symm⟩
  · exact .inr (inLine rest name left found)

/-- A quoted character is quiet if nothing is found behind it. -/
theorem Shut.quiet_cons {c : Char} {cs : List Char} {marks : List Bool} (shut : Shut indent read d cs marks)
    (same : marks.length = cs.length) (contained : Contained d read (c :: cs))
    (passed : ∀ rest quoted opens, statementsFrom (.line indent) read ((Anchor.line indent).opensAfter opens c) 0
      (cs ++ d :: rest) (marks ++ true :: quoted) = statementsFrom (.line indent) read false 0 rest quoted) :
    Quiet indent read d (c :: cs) (true :: marks) := by
  have whole (rest : List Char) (quoted : List Bool) (opens : Bool) :
      statementsFrom (.line indent) read opens 0 (c :: (cs ++ d :: rest)) (true :: (marks ++ true :: quoted)) =
        statementsFrom (.line indent) read false 0 rest quoted := by
    cases found : if opens then read (c :: (cs ++ d :: rest)) else none with
    | none =>
      rw [statementsFrom_passed found]
      exact passed rest quoted opens
    | some out =>
      obtain ⟨name, left⟩ := out
      obtain ⟨rfl, found'⟩ := Option.ite_none_right_eq_some.mp found
      rw [statementsFrom_found found, List.headD_cons, if_pos rfl, List.nil_append, List.tail_cons]
      rcases contained.left found' with ⟨more, rfl⟩ | ⟨crossed, rfl, inLine⟩
      · refine shut rest quoted _ ?_
        simp only [List.length_append, List.length_cons]
        omega
      · have crossing : statementsFrom (.line indent) read false _ _ _ = _ :=
          statementsFrom_crossed inLine (cs ++ [d]) left (marks ++ true :: quoted)
        rw [← List.append_cons, drop_marks same] at crossing
        exact crossing
  refine ⟨fun rest quoted skip short => ?_, whole⟩
  cases skip with
  | zero => exact whole rest quoted false
  | succ skip =>
    rw [List.cons_append, List.cons_append, statementsFrom]
    exact shut rest quoted skip (Nat.le_of_succ_le_succ short)

/-- In front of a quiet text one more quoted character keeps it quiet, if the reader is contained there. -/
theorem Quiet.cons {c : Char} {cs : List Char} {marks : List Bool} (quiet : Quiet indent read d cs marks)
    (same : marks.length = cs.length) (contained : Contained d read (c :: cs)) :
    Quiet indent read d (c :: cs) (true :: marks) :=
  quiet.shut.quiet_cons same contained fun rest quoted _ => quiet.passed rest quoted _

/-- Behind a quoted character in which no indent goes on, the rest of the line is quiet, quoted or not. -/
theorem quiet_line {quote : Char} {line : List Char} {marks : List Bool} (newline : d ≠ '\n')
    (shuts : quote ≠ '\n') (solid : indent quote = false) (inLine : '\n' ∉ line)
    (same : marks.length = line.length) (contained : Contained d read (quote :: line)) :
    Quiet indent read d (quote :: line) (true :: marks) := by
  refine (shut_line newline inLine same).quiet_cons same contained fun rest quoted opens => ?_
  rw [opensAfter_eq_false shuts solid]
  exact shut_line newline inLine same rest quoted 0 (Nat.zero_le _)

/-- Right in front of the character all is quiet, if no statement may start behind it. -/
theorem quiet_nil (newline : d ≠ '\n') (solid : indent d = false) (contained : Contained d read []) :
    Quiet indent read d [] [] := by
  refine ⟨shut_line newline (fun member => nomatch member) rfl, fun rest quoted opens => ?_⟩
  rw [List.nil_append, List.nil_append]
  cases found : if opens then read (d :: rest) else none with
  | none => rw [statementsFrom_passed found, opensAfter_eq_false newline solid, List.tail_cons]
  | some out =>
    obtain ⟨name, left⟩ := out
    obtain ⟨rfl, found'⟩ := Option.ite_none_right_eq_some.mp found
    rw [statementsFrom_found found, List.headD_cons, if_pos rfl, List.nil_append, List.tail_cons]
    rcases contained.left found' with ⟨more, rfl⟩ | ⟨crossed, rfl, inLine⟩
    · have none : rest.length - (more ++ d :: rest).length = 0 := by
        rw [List.length_append, List.length_cons]
        omega
      rw [none]
      rfl
    · exact statementsFrom_crossed inLine [] left quoted

/-- What is quoted is quiet. -/
theorem quiet_quoted (newline : d ≠ '\n') (solid : indent d = false) (contained : ∀ cs, Contained d read cs)
    (cs : List Char) : Quiet indent read d cs (List.replicate cs.length true) := by
  induction cs with
  | nil => exact quiet_nil newline solid (contained [])
  | cons c cs ih => exact ih.cons (List.length_replicate ..) (contained (c :: cs))

/-- In front of a `d` the reader does not look beyond it, up to a place from which all is quiet. -/
inductive Parted (indent : Char → Bool) (read : Reader α) (d : Char) : List Char → List Bool → Prop
  | quiet {cs : List Char} {marks : List Bool} (quiet : Quiet indent read d cs marks) :
      Parted indent read d cs marks
  | stops {c : Char} {cs : List Char} {mark : Bool} {marks : List Bool} (stops : StopsAt d read (c :: cs))
      (tail : Parted indent read d cs marks) : Parted indent read d (c :: cs) (mark :: marks)

/-- The statements of a text are those in front of a quoted `d` and those behind it. -/
theorem Parted.statementsFrom_eq {cs : List Char} {marks : List Bool} (parted : Parted indent read d cs marks) :
    ∀ opens skip, skip ≤ cs.length → (skip ≠ 0 → opens = false) → ∃ names, ∀ rest quoted,
      statementsFrom (.line indent) read opens skip (cs ++ d :: rest) (marks ++ true :: quoted) =
        names ++ statementsFrom (.line indent) read false 0 rest quoted := by
  induction parted with
  | quiet quiet =>
    intro opens skip short shut
    refine ⟨[], fun rest quoted => ?_⟩
    cases skip with
    | zero => exact quiet.passed rest quoted opens
    | succ skip =>
      rw [shut (Nat.succ_ne_zero skip)]
      exact quiet.shut rest quoted _ short
  | @stops c cs mark marks stops tail ih =>
    intro opens skip short shut
    cases skip with
    | succ skip =>
      obtain ⟨names, same⟩ := ih opens skip (Nat.le_of_succ_le_succ short) fun _ => shut (Nat.succ_ne_zero skip)
      refine ⟨names, fun rest quoted => ?_⟩
      rw [List.cons_append, List.cons_append, statementsFrom]
      exact same rest quoted
    | zero =>
      cases found : if opens then read (c :: cs) else none with
      | none =>
        obtain ⟨names, same⟩ :=
          ih ((Anchor.line indent).opensAfter opens c) 0 (Nat.zero_le _) fun none => absurd rfl none
        refine ⟨names, fun rest quoted => ?_⟩
        have nothing : (if opens then read (c :: (cs ++ d :: rest)) else none) = none := by
          rw [← List.cons_append, stops]
          cases opens with
          | false => rfl
          | true =>
            rw [if_pos rfl] at found ⊢
            rw [found]
            rfl
        rw [List.cons_append, List.cons_append, statementsFrom_passed nothing]
        exact same rest quoted
      | some out =>
        obtain ⟨name, left⟩ := out
        obtain ⟨names, same⟩ := ih false (cs.length - left.length) (Nat.sub_le ..) fun _ => rfl
        refine ⟨(if mark then [] else [name]) ++ names, fun rest quoted => ?_⟩
        obtain ⟨rfl, taken⟩ := Option.ite_none_right_eq_some.mp found
        have found' : (if true then read (c :: (cs ++ d :: rest)) else none) = some (name, left ++ d :: rest) := by
          rw [if_pos rfl, ← List.cons_append, stops, taken]
          rfl
        have length : (cs ++ d :: rest).length - (left ++ d :: rest).length = cs.length - left.length := by
          simp only [List.length_append]
          omega
        rw [List.cons_append, List.cons_append, statementsFrom_found found', length, List.append_assoc]
        exact congrArg _ (same rest quoted)

/-! ## Statements at the start of a word -/

/-- What is named at one place, if it is in code and a statement may start there. -/
def named (read : Reader α) (opens mark : Bool) (cs : List Char) : List α :=
  if opens && !mark then ((read cs).map (·.1)).toList else []

/-- What is named at each place in code where a statement may start, within another statement too. -/
def namings (read : Reader α) (opens : Bool) : List Char → List Bool → List α
  | [], _ => []
  | c :: cs, quoted =>
    named read opens (quoted.headD false) (c :: cs) ++ namings read (!Text.isWord c) cs quoted.tail

theorem namings_cons (opens : Bool) (c : Char) (cs : List Char) (mark : Bool) (marks : List Bool) :
    namings read opens (c :: cs) (mark :: marks) =
      named read opens mark (c :: cs) ++ namings read (!Text.isWord c) cs marks :=
  rfl

/-- No statement whose name is kept starts inside another, and a word may start behind each. -/
structure Apart (keep : α → Bool) (read : Reader α) : Prop where
  ends : ∀ cs name left, read cs = some (name, left) →
    ∃ taken last, cs = taken ++ last :: left ∧ Text.isWord last = false
  inside : ∀ cs name left, read cs = some (name, left) → ∀ lead inner, cs = lead ++ inner → lead ≠ [] →
    left.length < inner.length → ∀ name' left', read inner = some (name', left') → keep name' = false

variable {keep : α → Bool}

theorem named_of_none {opens mark : Bool} {cs : List Char} (nothing : (if opens then read cs else none) = none) :
    named read opens mark cs = [] := by
  unfold named
  cases opens with
  | false => rfl
  | true =>
    rw [if_pos rfl] at nothing
    rw [nothing]
    split <;> rfl

private theorem named_of_found {mark : Bool} {cs left : List Char} {name : α} (found : read cs = some (name, left)) :
    named read true mark cs = if mark then [] else [name] := by
  unfold named
  rw [found]
  cases mark <;> rfl

theorem named_quoted {opens : Bool} {cs : List Char} : named read opens true cs = [] := by
  rw [named, Bool.not_true, Bool.and_false, if_neg Bool.false_ne_true]

private theorem named_filter {opens mark : Bool} {cs : List Char}
    (dropped : ∀ name left, read cs = some (name, left) → keep name = false) :
    (named read opens mark cs).filter keep = [] := by
  unfold named
  split
  · cases found : read cs with
    | none => rfl
    | some out => exact List.filter_cons_of_neg (by simp [dropped out.1 out.2 found])
  · rfl

private theorem namings_inside {last : Char} {left : List Char} (ends : Text.isWord last = false) (taken : List Char)
    (opens : Bool) (quoted : List Bool)
    (inside : ∀ lead inner, taken ++ last :: left = lead ++ inner → left.length < inner.length →
      ∀ name left', read inner = some (name, left') → keep name = false) :
    (namings read opens (taken ++ last :: left) quoted).filter keep =
      (namings read true left (quoted.drop (taken ++ [last]).length)).filter keep := by
  induction taken generalizing opens quoted with
  | nil =>
    rw [List.nil_append, namings, List.filter_append, named_filter (inside [] _ rfl (Nat.lt_succ_self _)), ends,
      List.nil_append, List.nil_append, List.length_singleton, List.drop_one]
    rfl
  | cons c taken ih =>
    have here : left.length < (c :: (taken ++ last :: left)).length := by
      simp only [List.length_cons, List.length_append]
      omega
    rw [List.cons_append] at inside ⊢
    rw [namings, List.filter_append, named_filter (inside [] _ rfl here), List.nil_append,
      ih _ _ fun lead inner whole => inside (c :: lead) inner (by rw [whole, List.cons_append]),
      List.cons_append, List.length_cons, List.drop_tail]

/-- For statements that do not start inside one another, searching comes to reading at each place. -/
theorem Apart.statementsFrom_filter (apart : Apart keep read) (opens : Bool) (cs : List Char)
    (quoted : List Bool) :
    (statementsFrom .word read opens 0 cs quoted).filter keep = (namings read opens cs quoted).filter keep := by
  match cs with
  | [] => rfl
  | c :: cs =>
    cases found : if opens then read (c :: cs) else none with
    | none =>
      rw [statementsFrom_passed found, namings, named_of_none found, apart.statementsFrom_filter]
      rfl
    | some out =>
      obtain ⟨name, left⟩ := out
      obtain ⟨rfl, found'⟩ := Option.ite_none_right_eq_some.mp found
      obtain ⟨taken, last, whole, ends⟩ := apart.ends _ _ _ found'
      have inside := apart.inside _ _ _ found'
      rw [statementsFrom_found found, namings, named_of_found found', List.filter_append, List.filter_append]
      refine congrArg _ ?_
      cases taken with
      | nil =>
        obtain ⟨rfl, rfl⟩ := List.cons.inj (whole.trans (List.nil_append _))
        rw [Nat.sub_self, apart.statementsFrom_filter, ends]
        rfl
      | cons c' taken =>
        obtain ⟨rfl, rfl⟩ := List.cons.inj (whole.trans (List.cons_append ..))
        have skipped : (taken ++ last :: left).length - left.length = (taken ++ [last]).length + 0 := by
          simp only [List.length_append, List.length_cons, List.length_nil]
          omega
        rw [namings_inside ends taken _ _ fun lead inner same =>
          inside (c :: lead) inner (by rw [same, List.cons_append]) (List.cons_ne_nil _ _)]
        rw [skipped, List.append_cons taken last left, statementsFrom_skip, apart.statementsFrom_filter]
        rfl
termination_by cs.length
decreasing_by
  all_goals simp_all
  all_goals omega

/-- At each place in front of a `d` the reader does not look beyond it, or the place is quoted. -/
inductive Covered (read : Reader α) (d : Char) : List Char → List Bool → Prop
  | nil : Covered read d [] []
  | stops {c : Char} {cs : List Char} {mark : Bool} {marks : List Bool} (stops : StopsAt d read (c :: cs))
      (tail : Covered read d cs marks) : Covered read d (c :: cs) (mark :: marks)
  | quoted {c : Char} {cs : List Char} {marks : List Bool} (tail : Covered read d cs marks) :
      Covered read d (c :: cs) (true :: marks)

/-- In front of a covered character the names are those that are found without what is behind it. -/
theorem Covered.namings_eq {cs : List Char} {marks : List Bool} (covered : Covered read d cs marks) (opens : Bool)
    (rest : List Char) (quoted : List Bool) : namings read opens (cs ++ d :: rest) (marks ++ true :: quoted) =
      namings read opens cs marks ++ namings read (!Text.isWord d) rest quoted := by
  induction covered generalizing opens with
  | nil =>
    rw [List.nil_append, List.nil_append, namings_cons, named_quoted]
    rfl
  | @stops c cs mark marks stops tail ih =>
    have same : named read opens mark (c :: (cs ++ d :: rest)) = named read opens mark (c :: cs) := by
      unfold named
      rw [← List.cons_append, stops, Option.map_map]
      rfl
    rw [List.cons_append, List.cons_append, namings_cons, namings_cons, same, ih, List.append_assoc]
  | @quoted c cs marks tail ih =>
    rw [List.cons_append, List.cons_append, namings_cons, namings_cons, named_quoted, named_quoted, ih,
      List.nil_append, List.nil_append]

/-- In a literal nothing is named, and behind it the search goes on. -/
theorem namings_quoted (opens : Bool) (cs rest : List Char) (quoted : List Bool) :
    namings read opens (cs ++ d :: rest) (List.replicate cs.length true ++ true :: quoted) =
      namings read (!Text.isWord d) rest quoted := by
  induction cs generalizing opens with
  | nil =>
    rw [List.length_nil, List.replicate_zero, List.nil_append, List.nil_append, namings_cons, named_quoted,
      List.nil_append]
  | cons c cs ih =>
    rw [List.cons_append, List.length_cons, List.replicate_succ, List.cons_append, namings_cons, named_quoted, ih,
      List.nil_append]

end ReviewContext.Source
