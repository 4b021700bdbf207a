import ReviewContext.Proofs.Source.Literals
import ReviewContext.Proofs.Source.Script

/-! # Reading the statements of a script

Each form of statement is read by one reader and by no other. Those at the start of a line read as far as the closing
quote of the module. A call is read where its keyword stands and nowhere else in its line, since every other place is
quoted or opens no parenthesis behind the keyword.
-/

namespace ReviewContext.Source.Script

/-! ## Forms and readers -/

/-- The ways to name a module that have a reader of their own. -/
inductive Kind where
  | imported
  | effect
  | exported
  | required
  | loaded
  deriving DecidableEq

namespace Kind

def all : List Kind :=
  [imported, effect, exported, required, loaded]

def anchor : Kind → Anchor
  | imported | effect | exported => Imports.indented
  | required | loaded => .word

def read : Kind → Reader (List Char)
  | imported => Imports.namesFrom? "import"
  | effect => Imports.bare?
  | exported => Imports.namesFrom? "export"
  | required => Imports.call? "require"
  | loaded => Imports.call? "import"

/-- The keyword of a statement. -/
def word : Kind → String
  | imported | effect | loaded => "import"
  | exported => "export"
  | required => "require"

def initial (kind : Kind) : Char :=
  kind.word.toList.headD ' '

theorem word_lower (kind : Kind) : ∀ c ∈ kind.word.toList, c.isLower := by
  cases kind <;> exact forall_of_all (by decide)

theorem word_nonempty (kind : Kind) : kind.word.toList ≠ [] := by
  cases kind <;> decide

/-- A statement is looked for at the start of a line, a call at the start of a word. -/
theorem anchor_cases (kind : Kind) : kind.anchor = Imports.indented ∨ kind.anchor = .word := by
  cases kind with
  | imported | effect | exported => exact .inl rfl
  | required | loaded => exact .inr rfl

/-- What is looked for at the start of a word is a call. -/
theorem read_of_word {kind : Kind} (called : kind.anchor = .word) : kind.read = Imports.call? kind.word := by
  cases kind with
  | imported | effect | exported => cases called
  | required | loaded => rfl

theorem mem_all (kind : Kind) : kind ∈ all := by
  cases kind <;> decide

end Kind

def Form.kind : Form → Kind
  | .imported _ => .imported
  | .effect => .effect
  | .exported _ | .exportedAll => .exported
  | .required _ => .required
  | .loaded _ => .loaded

/-- The module that a line names in one of these ways. -/
def Line.named? (kind : Kind) : Line → Option (List Char)
  | statement form _ module => if form.kind = kind ∧ module.text ≠ [] then some module.text else none
  | _ => none

/-- The modules that a text names are looked for in one way after the other. -/
theorem written_eq {language : Language} (script : language = .javascript ∨ language = .typescript) (cs : List Char)
    (marks : List Bool) : Imports.written language cs marks =
      Kind.all.flatMap fun kind => statements kind.anchor kind.read cs marks := by
  rw [written_of_script script]
  simp only [Kind.all, List.flatMap_cons, List.flatMap_nil, List.append_nil, List.append_assoc]
  rfl

/-- A text with another first character does not start with the keyword. -/
theorem keyword?_of_other {word : String} {h c : Char} {letters : List Char} (spelled : word.toList = h :: letters)
    (other : c ≠ h) (cs : List Char) : keyword? word (c :: cs) = none := by
  unfold keyword?
  rw [spelled]
  simp [List.isPrefixOf?, other.symm]

/-- A reader finds nothing where its keyword does not start. -/
theorem Kind.read_of_other {kind : Kind} {c : Char} (other : c ≠ kind.initial) (cs : List Char) :
    kind.read (c :: cs) = none := by
  have clause {word : String} (missing : keyword? word (c :: cs) = none) :
      Imports.namesFrom? word (c :: cs) = none := by
    unfold Imports.namesFrom?
    rw [missing]
    rfl
  have call {word : String} (missing : keyword? word (c :: cs) = none) : Imports.call? word (c :: cs) = none := by
    unfold Imports.call?
    rw [missing]
    rfl
  cases kind with
  | imported => exact clause (keyword?_of_other rfl other cs)
  | effect =>
    have missing : keyword? "import" (c :: cs) = none := keyword?_of_other rfl other cs
    change ((keyword? "import" (c :: cs)).bind gap?).bind quotedText? = none
    rw [missing]
    rfl
  | exported => exact clause (keyword?_of_other rfl other cs)
  | required => exact call (keyword?_of_other rfl other cs)
  | loaded => exact call (keyword?_of_other rfl other cs)

/-! ## Clauses -/

private theorem Name.inClause : ∀ name : Name, ∀ c ∈ name.text, Imports.inClause c ∧ ¬ Text.isBlank c :=
  Name.forall (by decide +kernel)

private theorem braced_inClause (items : List Item) : ∀ c ∈ braced items, Imports.inClause c :=
  braced_forall (fun name c member => (name.inClause c member).1) (forall_of_all (by decide)) items

private theorem Clause.inClause (clause : Clause) : ∀ c ∈ clause.text, Imports.inClause c :=
  clause.forall (fun name c member => (name.inClause c member).1) (forall_of_all (by decide))

/-- A clause starts with no blank. -/
theorem Clause.exists_cons (clause : Clause) : ∃ c cs, clause.text = c :: cs ∧ ¬ Text.isBlank c := by
  cases clause with
  | whole name =>
    obtain ⟨c, cs, text⟩ := List.exists_cons_of_ne_nil name.nonempty
    exact ⟨c, cs, text, (name.inClause c (text ▸ List.mem_cons_self)).2⟩
  | parts items => exact ⟨_, _, rfl, by decide⟩
  | all name => exact ⟨_, _, rfl, by decide⟩
  | types items => exact ⟨_, _, rfl, by decide⟩

private theorem endsInFrom_clause {clause : List Char} (nonempty : clause ≠ []) :
    Imports.endsInFrom (' ' :: (clause ++ " from ".toList)) = true := by
  have reversed : (' ' :: (clause ++ " from ".toList)).reverse =
      ' ' :: 'm' :: 'o' :: 'r' :: 'f' :: ' ' :: (clause.reverse ++ [' ']) := by
    rw [List.reverse_cons, List.reverse_append]
    rfl
  have trimmed : (' ' :: 'm' :: 'o' :: 'r' :: 'f' :: ' ' :: (clause.reverse ++ [' '])).dropWhile Text.isBlank =
      'm' :: 'o' :: 'r' :: 'f' :: ' ' :: (clause.reverse ++ [' ']) :=
    rfl
  have some : 1 ≤ clause.length := List.length_pos_of_ne_nil nonempty
  have long : 2 ≤ (clause.reverse ++ [' ']).length := by
    rw [List.length_append, List.length_reverse, List.length_singleton]
    omega
  have blank : Text.isBlank ' ' = true := by decide
  unfold Imports.endsInFrom
  rw [reversed]
  simp only [trimmed, List.headD_cons, blank, long, decide_true, Bool.and_self]

section Read

variable {quote : Char} {text : List Char}

private theorem quotedText?_of_quotes (quotes : isQuote quote) (within : ∀ c ∈ text, inQuotes c) (rest : List Char) :
    quotedText? (quote :: (text ++ quote :: rest)) = if text ≠ [] then some (text, rest) else none := by
  rw [quotedText?_of_closed within (isQuote_not_inQuotes quotes)]
  simp only [quotes, true_and, and_true]

private theorem namesFrom?_clause (word : String) {clause : List Char} (nonempty : clause ≠ [])
    (inside : ∀ c ∈ clause, Imports.inClause c) (quotes : isQuote quote) (within : ∀ c ∈ text, inQuotes c)
    (rest : List Char) :
    Imports.namesFrom? word (word.toList ++ (' ' :: (clause ++ " from ".toList)) ++ quote :: (text ++ quote :: rest)) =
      if text ≠ [] then some (text, rest) else none := by
  have outside : ¬ Imports.inClause quote := by
    rcases eq_of_isQuote quotes with rfl | rfl <;> decide
  have all : ∀ c ∈ ' ' :: (clause ++ " from ".toList), Imports.inClause c :=
    List.forall_mem_cons.mpr ⟨by decide, List.forall_mem_append.mpr ⟨inside, forall_of_all (by decide)⟩⟩
  have keyword := keyword?_eq_some_iff.mpr
    (List.append_assoc word.toList (' ' :: (clause ++ " from ".toList)) (quote :: (text ++ quote :: rest)))
  unfold Imports.namesFrom?
  rw [keyword, Option.bind_eq_bind, Option.bind_some, List.takeWhile_append_of_pos all,
    List.takeWhile_cons_of_neg outside, List.append_nil, List.dropWhile_append_of_pos all,
    List.dropWhile_cons_of_neg outside, if_pos (endsInFrom_clause nonempty), quotedText?_of_quotes quotes within]

private theorem bare?_of_gap (cs : List Char) :
    Imports.bare? ("import ".toList ++ cs) = quotedText? (Text.trimStart cs) := by
  have keyword : keyword? "import" ("import ".toList ++ cs) = some (' ' :: cs) := keyword?_eq_some_iff.mpr rfl
  change ((keyword? "import" ("import ".toList ++ cs)).bind gap?).bind quotedText? = _
  rw [keyword]
  rfl

/-- A reader that looks at the start of a line reads a statement of its own form. -/
theorem read_own {form : Form} (lined : form.kind.anchor = Imports.indented) (quotes : isQuote quote)
    (within : ∀ c ∈ text, inQuotes c) (rest : List Char) :
    form.kind.read (form.lead ++ quote :: (text ++ quote :: rest)) =
      if text ≠ [] then some (text, rest) else none := by
  cases form with
  | imported clause =>
    obtain ⟨c, cs, shape, -⟩ := clause.exists_cons
    have nonempty : clause.text ≠ [] := shape ▸ List.cons_ne_nil c cs
    exact namesFrom?_clause "import" nonempty clause.inClause quotes within rest
  | effect =>
    have solid : ¬ Text.isBlank quote := by
      rcases eq_of_isQuote quotes with rfl | rfl <;> decide
    have read := bare?_of_gap (quote :: (text ++ quote :: rest))
    rw [Text.trimStart, List.dropWhile_cons_of_neg solid, quotedText?_of_quotes quotes within] at read
    exact read
  | exported items =>
    exact namesFrom?_clause "export" (List.cons_ne_nil _ _) (braced_inClause items) quotes within rest
  | exportedAll =>
    have star : ∀ c ∈ ['*'], Imports.inClause c := forall_of_all (by decide)
    exact namesFrom?_clause "export" (List.cons_ne_nil _ _) star quotes within rest
  | required | loaded => cases lined

/-- And none of another. -/
theorem read_foreign {kind : Kind} (lined : kind.anchor = Imports.indented) {form : Form} (other : form.kind ≠ kind)
    (quotes : isQuote quote) (cs : List Char) : kind.read (form.lead ++ quote :: cs) = none := by
  cases kind with
  | required | loaded => cases lined
  | imported =>
    cases form with
    | imported => exact absurd rfl other
    | effect =>
      have outside : ¬ Imports.inClause quote := by
        rcases eq_of_isQuote quotes with rfl | rfl <;> decide
      have gap : ∀ c ∈ [' '], Imports.inClause c := forall_of_all (by decide)
      have clause : (' ' :: quote :: cs).takeWhile Imports.inClause = [' '] := by
        rw [← List.singleton_append, List.takeWhile_append_of_pos gap, List.takeWhile_cons_of_neg outside]
        rfl
      have open_ : ¬ Imports.endsInFrom ((' ' :: quote :: cs).takeWhile Imports.inClause) := by
        rw [clause]
        decide
      exact if_neg open_
    | exported | exportedAll | required | loaded => exact Kind.read_of_other (by decide) _
  | effect =>
    cases form with
    | effect => exact absurd rfl other
    | imported clause =>
      obtain ⟨c, more, shape, solid⟩ := clause.exists_cons
      have unquoted : ¬ isQuote c := by
        have inside := clause.inClause c (shape ▸ List.mem_cons_self)
        intro quotes
        rcases eq_of_isQuote quotes with rfl | rfl <;> exact absurd inside (by decide)
      have read := bare?_of_gap (clause.text ++ (" from ".toList ++ quote :: cs))
      rw [shape, List.cons_append, Text.trimStart, List.dropWhile_cons_of_neg solid, quotedText?_cons,
        if_neg unquoted] at read
      refine Eq.trans (congrArg Imports.bare? ?_) read
      rw [← List.cons_append, ← shape, ← List.append_assoc, ← List.append_assoc]
      rfl
    | exported | exportedAll | required | loaded => exact Kind.read_of_other (by decide) _
  | exported =>
    cases form with
    | exported | exportedAll => exact absurd rfl other
    | imported | effect | required | loaded => exact Kind.read_of_other (by decide) _

end Read

/-! ## Searching a line -/

section Search

variable {α : Type} {indent : Char → Bool} {read : Reader α}

/-- On a line that starts with a statement, or with none, only that statement is found. -/
theorem statementsFrom_line {c : Char} {cs rest : List Char} {marks : List Bool}
    {found : Option (α × List Char)} (solid : indent c = false) (inLine : '\n' ∉ c :: cs)
    (same : marks.length = cs.length) (read_eq : read (c :: (cs ++ rest)) = found.map (Prod.map id (· ++ rest)))
    (quoted : List Bool) :
    statementsFrom (.line indent) read true 0 (c :: (cs ++ rest)) (false :: (marks ++ quoted)) =
      (found.map (·.1)).toList ++ statementsFrom (.line indent) read false 0 rest quoted := by
  obtain ⟨other, inLine⟩ := not_or.mp (mt List.mem_cons.mpr inLine)
  have dropped : (marks ++ quoted).drop cs.length = quoted := by
    rw [← same, List.drop_left]
  cases found with
  | none =>
    have nothing : (if true then read (c :: (cs ++ rest)) else none) = none := read_eq
    rw [statementsFrom_passed nothing, opensAfter_eq_false (Ne.symm other) solid, List.tail_cons,
      statementsFrom_inLine inLine (Nat.zero_le _), dropped]
    rfl
  | some out =>
    obtain ⟨name, left⟩ := out
    have taken : (if true then read (c :: (cs ++ rest)) else none) = some (name, left ++ rest) := read_eq
    have short : (cs ++ rest).length - (left ++ rest).length ≤ cs.length := by
      rw [List.length_append, List.length_append]
      omega
    rw [statementsFrom_found taken, List.tail_cons]
    refine congrArg ([name] ++ ·) ?_
    change statementsFrom (.line indent) read false _ _ _ = _
    rw [statementsFrom_inLine inLine short, dropped]

/-- Whether a word may start behind a text. -/
def opensBehind (opens : Bool) (cs : List Char) : Bool :=
  cs.foldl (fun _ c => !Text.isWord c) opens

private theorem namings_passed {front : List Char} (opens : Bool) (rest : List Char) (marks : List Bool)
    (nothing : ∀ lead c cs, front = lead ++ c :: cs → read (c :: (cs ++ rest)) = none) :
    namings read opens (front ++ rest) (List.replicate front.length false ++ marks) =
      namings read (opensBehind opens front) rest marks := by
  induction front generalizing opens with
  | nil => rfl
  | cons c front ih =>
    have here : (if opens then read (c :: (front ++ rest)) else none) = none := by
      rw [nothing [] c front rfl]
      split <;> rfl
    rw [List.cons_append, List.length_cons, List.replicate_succ, List.cons_append, namings_cons, named_of_none here,
      List.nil_append]
    exact ih _ fun lead d cs whole => nothing (c :: lead) d cs (congrArg (c :: ·) whole)

end Search

/-! ## Calls in a line -/

section Calls

variable {word : String} {quote : Char} {lead text tail : List Char} {opens : Bool}

private theorem call?_unopened (lower : ∀ c ∈ word.toList, c.isLower) (quotes : isQuote quote)
    (unquoted : ∀ c ∈ lead, !isQuote c) (unopened : ¬ Imports.Opening word.toList lead) (rest : List Char) :
    Imports.call? word (lead ++ quote :: rest) = none := by
  cases found : Imports.call? word (lead ++ quote :: rest) with
  | none => rfl
  | some out =>
    obtain ⟨path, left⟩ := out
    exact absurd ((Imports.isCall found).split lower unquoted quotes).1 unopened

private theorem call?_of_other {c : Char} (lower : ∀ c ∈ word.toList, c.isLower) (nonempty : word.toList ≠ [])
    (upper : ¬ c.isLower) (cs : List Char) : Imports.call? word (c :: cs) = none := by
  cases found : Imports.call? word (c :: cs) with
  | none => rfl
  | some out =>
    obtain ⟨path, left⟩ := out
    obtain ⟨d, more, shape, isLower⟩ := (Imports.isCall found).exists_cons lower nonempty
    obtain ⟨rfl, -⟩ := List.cons.inj shape
    exact absurd isLower upper

/-- In a literal and behind it, up to the end of its line, no call is found. -/
theorem namings_literal (lower : ∀ c ∈ word.toList, c.isLower) (nonempty : word.toList ≠ [])
    (ended : ∀ c ∈ tail, ¬ c.isLower) (rest : List Char) (marks : List Bool) :
    namings (Imports.call? word) opens (quote :: (text ++ quote :: (tail ++ rest)))
        (true :: (List.replicate text.length true ++ true :: (List.replicate tail.length false ++ marks))) =
      namings (Imports.call? word) (opensBehind (!Text.isWord quote) tail) rest marks := by
  rw [namings_cons, named_quoted, List.nil_append, namings_quoted]
  refine namings_passed _ rest marks fun lead c cs whole => ?_
  exact call?_of_other lower nonempty (ended c (whole ▸ List.mem_append_right _ List.mem_cons_self)) _

/-- No call is found in a line in which none is opened. -/
theorem namings_unopened (lower : ∀ c ∈ word.toList, c.isLower) (nonempty : word.toList ≠ []) (quotes : isQuote quote)
    (unquoted : ∀ c ∈ lead, !isQuote c) (ended : ∀ c ∈ tail, ¬ c.isLower)
    (unopened : ∀ front opening, lead = front ++ opening → ¬ Imports.Opening word.toList opening) (rest : List Char)
    (marks : List Bool) :
    namings (Imports.call? word) opens (around quote lead text (tail ++ rest))
        (marksAround (List.replicate lead.length false) text (List.replicate tail.length false ++ marks)) =
      namings (Imports.call? word) (opensBehind (!Text.isWord quote) tail) rest marks := by
  rw [around, marksAround, namings_passed, namings_literal lower nonempty ended]
  intro front c cs whole
  have inner : ∀ d ∈ c :: cs, !isQuote d := fun d member => unquoted d (whole ▸ List.mem_append_right _ member)
  exact call?_unopened lower quotes inner (unopened front (c :: cs) whole) _

private theorem eq_nil_of_blank {cs gap : List Char} (blank : ∀ c ∈ gap, Text.isBlank c)
    (solid : ∀ c ∈ (cs ++ gap).getLast?, ¬ Text.isBlank c) : gap = [] := by
  by_contra some
  rw [List.getLast?_append_of_ne_nil _ some] at solid
  exact solid _ (List.getLast?_eq_some_getLast some) (blank _ (List.getLast_mem some))

/-- An opening that ends a text is the keyword with its parenthesis, if no blank stands in front of that. -/
theorem opening_of_suffix {letters front opening : List Char} (made : Imports.Opening letters opening)
    (solid : ∀ c ∈ lead.getLast?, ¬ Text.isBlank c) (whole : lead ++ ['('] = front ++ opening) :
    lead = front ++ letters ∧ opening = letters ++ ['('] := by
  obtain ⟨gap, gap', rfl, blank, blank'⟩ := made
  have split : lead ++ ['('] = (front ++ (letters ++ (gap ++ ['(']))) ++ gap' := by
    rw [whole]
    simp only [List.append_assoc, List.cons_append, List.nil_append]
  have closing : ∀ c ∈ (lead ++ ['(']).getLast?, ¬ Text.isBlank c := by
    rw [List.getLast?_concat]
    rintro c ⟨⟩
    decide
  obtain rfl : gap' = [] := eq_nil_of_blank blank' (split ▸ closing)
  rw [List.append_nil, ← List.append_assoc, ← List.append_assoc] at split
  have same : lead = (front ++ letters) ++ gap := List.append_cancel_right split
  obtain rfl : gap = [] := eq_nil_of_blank blank (same ▸ solid)
  rw [List.append_nil] at same
  exact ⟨same, rfl⟩

theorem Opening.mem {letters opening : List Char} (made : Imports.Opening letters opening) : '(' ∈ opening := by
  obtain ⟨gap, gap', rfl, -⟩ := made
  exact List.mem_append_right _ (List.mem_append_right _ List.mem_cons_self)

private theorem call?_opened (quotes : isQuote quote) (within : ∀ c ∈ text, inQuotes c) (rest : List Char) :
    Imports.call? word (word.toList ++ '(' :: quote :: (text ++ quote :: ')' :: rest)) =
      if text ≠ [] then some (text, rest) else none := by
  have solid : ¬ Text.isBlank quote := by
    rcases eq_of_isQuote quotes with rfl | rfl <;> decide
  have opened : Imports.callOpening? word (word.toList ++ '(' :: quote :: (text ++ quote :: ')' :: rest)) =
      some (quote :: (text ++ quote :: ')' :: rest)) := by
    have keyword : keyword? word (word.toList ++ '(' :: quote :: (text ++ quote :: ')' :: rest)) = some _ :=
      keyword?_eq_some_iff.mpr rfl
    have start : Text.trimStart (quote :: (text ++ quote :: ')' :: rest)) = quote :: (text ++ quote :: ')' :: rest) :=
      List.dropWhile_cons_of_neg solid
    unfold Imports.callOpening?
    rw [keyword]
    exact congrArg some start
  rw [Imports.call?_eq]
  dsimp only
  rw [opened]
  change Imports.argument? (quote :: (text ++ quote :: ')' :: rest)) = _
  unfold Imports.argument?
  rw [quotedText?_of_quotes quotes within]
  split
  · rfl
  · rfl

theorem solid_of_lower (lower : ∀ c ∈ word.toList, c.isLower) (nonempty : word.toList ≠ []) (lead : List Char) :
    ∀ c ∈ (lead ++ word.toList).getLast?, ¬ Text.isBlank c := by
  intro c last blank
  rw [List.getLast?_append_of_ne_nil _ nonempty] at last
  exact Imports.not_isLower_of_isBlank blank (lower c (List.mem_of_getLast? last))

/-- The keyword and the parenthesis that end a text are its only opening. -/
theorem eq_of_opening (lower : ∀ c ∈ word.toList, c.isLower) (nonempty : word.toList ≠ []) {front opening : List Char}
    (made : Imports.Opening word.toList opening) (whole : lead ++ (word.toList ++ ['(']) = front ++ opening) :
    front = lead := by
  rw [← List.append_assoc] at whole
  obtain ⟨same, -⟩ := opening_of_suffix made (solid_of_lower lower nonempty lead) whole
  exact (List.append_cancel_right same).symm

/-- Such a text is read as a call from nowhere but its keyword. -/
theorem call?_elsewhere (lower : ∀ c ∈ word.toList, c.isLower) (nonempty : word.toList ≠ []) (quotes : isQuote quote)
    (unquoted : ∀ c ∈ lead, !isQuote c) {front opening : List Char}
    (whole : lead ++ (word.toList ++ ['(']) = front ++ opening) (other : front ≠ lead) (rest : List Char) :
    Imports.call? word (opening ++ quote :: rest) = none := by
  have unquoted_all : ∀ c ∈ lead ++ (word.toList ++ ['(']), !isQuote c := by
    have unquoted_word : ∀ c ∈ word.toList, !isQuote c := fun c member => by
      simpa using Imports.not_quote_of_isLower (lower c member)
    exact List.forall_mem_append.mpr ⟨unquoted, List.forall_mem_append.mpr ⟨unquoted_word, forall_of_all (by decide)⟩⟩
  have inner : ∀ c ∈ opening, !isQuote c := fun c member =>
    unquoted_all c (whole ▸ List.mem_append_right _ member)
  exact call?_unopened lower quotes inner (fun made => other (eq_of_opening lower nonempty made whole)) rest

private theorem replicate_append (lead more : List Char) (marks : List Bool) :
    List.replicate (lead ++ more).length false ++ marks =
      List.replicate lead.length false ++ (List.replicate more.length false ++ marks) := by
  rw [List.length_append, List.replicate_add, List.append_assoc]

/-- A call is found at its keyword, and no other up to its quote. -/
theorem namings_opening (lower : ∀ c ∈ word.toList, c.isLower) (nonempty : word.toList ≠ []) (quotes : isQuote quote)
    (within : ∀ c ∈ text, inQuotes c) (rest : List Char) (marks : List Bool) : ∃ behind,
    namings (Imports.call? word) true ((word.toList ++ ['(']) ++ quote :: (text ++ quote :: ')' :: rest))
        (List.replicate (word.toList ++ ['(']).length false ++ marks) =
      (if text ≠ [] then [text] else []) ++
        namings (Imports.call? word) behind (quote :: (text ++ quote :: ')' :: rest)) marks := by
  have found : Imports.call? word ((word.toList ++ ['(']) ++ quote :: (text ++ quote :: ')' :: rest)) =
      if text ≠ [] then some (text, rest) else none := by
    rw [List.append_assoc, List.singleton_append]
    exact call?_opened quotes within rest
  have nowhere : ∀ c ∈ ([] : List Char), !isQuote c := fun _ member => nomatch member
  cases shape : word.toList ++ ['('] with
  | nil => cases (List.append_eq_nil_iff.mp shape).2
  | cons c cs =>
    rw [shape] at found
    have later : ∀ lead d ds, cs = lead ++ d :: ds →
        Imports.call? word (d :: (ds ++ quote :: (text ++ quote :: ')' :: rest))) = none := by
      intro lead d ds whole
      have inside : [] ++ (word.toList ++ ['(']) = (c :: lead) ++ d :: ds := by
        rw [List.nil_append, shape, whole, List.cons_append]
      exact call?_elsewhere lower nonempty quotes nowhere inside (List.cons_ne_nil c lead) _
    have first : named (Imports.call? word) true false (c :: (cs ++ quote :: (text ++ quote :: ')' :: rest))) =
        if text ≠ [] then [text] else [] := by
      rw [← List.cons_append, named, Bool.not_false, Bool.and_true, if_pos rfl, found]
      split <;> rfl
    refine ⟨opensBehind (!Text.isWord c) cs, ?_⟩
    rw [List.cons_append, List.length_cons, List.replicate_succ, List.cons_append, namings_cons, first,
      namings_passed _ _ _ later]

/-- In a line with a call just that call is found. -/
theorem namings_call (lower : ∀ c ∈ word.toList, c.isLower) (nonempty : word.toList ≠ []) (quotes : isQuote quote)
    (within : ∀ c ∈ text, inQuotes c) (unquoted : ∀ c ∈ lead, !isQuote c) (starts : opensBehind opens lead = true)
    (ended : ∀ c ∈ tail, ¬ c.isLower) (rest : List Char) (marks : List Bool) :
    namings (Imports.call? word) opens (around quote (lead ++ (word.toList ++ ['('])) text (')' :: tail ++ rest))
        (marksAround (List.replicate (lead ++ (word.toList ++ ['('])).length false) text
          (List.replicate (')' :: tail).length false ++ marks)) =
      (if text ≠ [] then [text] else []) ++
        namings (Imports.call? word) (opensBehind (!Text.isWord quote) (')' :: tail)) rest marks := by
  have ended : ∀ c ∈ ')' :: tail, ¬ c.isLower := List.forall_mem_cons.mpr ⟨by decide, ended⟩
  have nothing : ∀ front c cs, lead = front ++ c :: cs → Imports.call? word
      (c :: (cs ++ ((word.toList ++ ['(']) ++ quote :: (text ++ quote :: (')' :: tail ++ rest))))) = none := by
    intro front c cs whole
    have other : front ≠ lead := by
      rintro rfl
      simpa using congrArg List.length whole
    have inside : lead ++ (word.toList ++ ['(']) = front ++ (c :: cs ++ (word.toList ++ ['('])) := by
      rw [whole, List.append_assoc]
    rw [← List.cons_append, ← List.append_assoc]
    exact call?_elsewhere lower nonempty quotes unquoted inside other _
  obtain ⟨behind, opened⟩ := namings_opening lower nonempty quotes within (tail ++ rest)
    (true :: (List.replicate text.length true ++ true :: (List.replicate (')' :: tail).length false ++ marks)))
  rw [around, marksAround, replicate_append, List.append_assoc lead, namings_passed _ _ _ nothing, starts]
  exact opened.trans (congrArg _ (namings_literal lower nonempty ended rest marks))

end Calls

end ReviewContext.Source.Script
