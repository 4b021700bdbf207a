import ReviewContext.Proofs.Source.Search

/-! # Calls of a module

A call names its module in quotes between parentheses. No call that names a place in the repository starts inside
another: in front of the quotes there is only the keyword, and a call that starts between them takes the closing
quote for its own, so that what it names starts with the parenthesis behind it.
-/

namespace ReviewContext.Source.Imports

variable {d : Char} {word : String}

/-- The keyword of a call and the parenthesis, with the blanks behind each. -/
def callOpening? (word : String) (cs : List Char) : Option (List Char) :=
  keyword? word cs >>= fun rest => (keyword? "(" (Text.trimStart rest)).map Text.trimStart

/-- A module in quotes and the parenthesis behind it. -/
def argument? : Reader (List Char) := fun cs =>
  (quotedText? cs).bind fun (path, rest) => (keyword? ")" (Text.trimStart rest)).map (path, ·)

/-- A call is its keyword with the parenthesis, and behind that its argument. -/
theorem call?_eq (word : String) : call? word = fun cs => callOpening? word cs >>= argument? := by
  funext cs
  unfold call? callOpening?
  cases keyword? word cs with
  | none => rfl
  | some rest =>
    change (keyword? "(" (Text.trimStart rest)).bind _ =
      ((keyword? "(" (Text.trimStart rest)).map Text.trimStart).bind argument?
    cases keyword? "(" (Text.trimStart rest) with
    | none => rfl
    | some rest =>
      change (quotedText? (Text.trimStart rest)).bind _ = (quotedText? (Text.trimStart rest)).bind _
      cases quotedText? (Text.trimStart rest) with
      | none => rfl
      | some out =>
        obtain ⟨path, rest⟩ := out
        change (keyword? ")" (Text.trimStart rest)).bind _ = (keyword? ")" (Text.trimStart rest)).map _
        cases keyword? ")" (Text.trimStart rest) <;> rfl

private theorem callOpening?_endsAt (absent : d ∉ word.toList) (solid : Text.isBlank d = false) (other : d ≠ '(') :
    EndsAt d (callOpening? word) := by
  refine (keyword?_endsAt absent).bind fun cs rest => ?_
  have opened : EndsAt d (keyword? "(") := keyword?_endsAt (by simpa using other)
  rw [trimStart_stop solid, opened]
  cases keyword? "(" (Text.trimStart cs) with
  | none => rfl
  | some left => exact congrArg some (trimStart_stop solid left rest)

private theorem exists_gap (cs : List Char) : ∃ gap, cs = gap ++ Text.trimStart cs ∧ ∀ c ∈ gap, Text.isBlank c :=
  ⟨_, (List.takeWhile_append_dropWhile ..).symm, fun _ member => List.mem_takeWhile_imp member⟩

private theorem callOpening?_eq_some {cs left : List Char} (taken : callOpening? word cs = some left) :
    ∃ gap gap', cs = word.toList ++ (gap ++ '(' :: (gap' ++ left)) ∧
      (∀ c ∈ gap, Text.isBlank c) ∧ ∀ c ∈ gap', Text.isBlank c := by
  obtain ⟨rest, first, second⟩ := Option.bind_eq_some_iff.mp taken
  obtain ⟨more, third, rfl⟩ := Option.map_eq_some_iff.mp second
  obtain ⟨gap, whole, blank⟩ := exists_gap rest
  obtain ⟨gap', whole', blank'⟩ := exists_gap more
  refine ⟨gap, gap', ?_, blank, blank'⟩
  rw [← whole', keyword?_eq_some_iff.mp first, whole, keyword?_eq_some_iff.mp third]
  rfl

private theorem argument?_eq_some {cs path left : List Char} (found : argument? cs = some (path, left)) :
    ∃ quote close gap, cs = quote :: (path ++ close :: (gap ++ ')' :: left)) ∧ isQuote quote ∧ isQuote close ∧
      (∀ c ∈ path, inQuotes c) ∧ ∀ c ∈ gap, Text.isBlank c := by
  obtain ⟨⟨text, rest⟩, first, second⟩ := Option.bind_eq_some_iff.mp found
  obtain ⟨after, third, same⟩ := Option.map_eq_some_iff.mp second
  obtain ⟨rfl, rfl⟩ := Prod.mk.inj same
  obtain ⟨quote, close, rfl, opens, closes, -, within⟩ := quotedText?_eq_some_iff.mp first
  obtain ⟨gap, whole, blank⟩ := exists_gap rest
  refine ⟨quote, close, gap, ?_, opens, closes, within, blank⟩
  rw [whole, keyword?_eq_some_iff.mp third]
  rfl

private theorem callOpening?_plain (bare : ∀ c ∈ word.toList, Bare c) : Plain (callOpening? word) := by
  intro cs left taken
  obtain ⟨gap, gap', rfl, blank, blank'⟩ := callOpening?_eq_some taken
  refine ⟨word.toList ++ (gap ++ '(' :: gap'), by simp, fun c member => ?_⟩
  simp only [List.mem_append, List.mem_cons] at member
  rcases member with inWord | inGap | rfl | inGap
  · exact bare c inWord
  · exact bare_of_isBlank (blank c inGap)
  · decide
  · exact bare_of_isBlank (blank' c inGap)

private theorem argument?_guarded (inner : inQuotes d) (solid : Text.isBlank d = false) (other : d ≠ ')') :
    Guarded d argument? := by
  intro cs
  refine (quotedText?_guarded inner cs).imp (fun stops rest => ?_) id
  have closed : EndsAt d (keyword? ")") := keyword?_endsAt (by simpa using other)
  unfold argument?
  rw [stops]
  cases quotedText? cs with
  | none => rfl
  | some out =>
    obtain ⟨path, left⟩ := out
    simp only [Option.map_some, Option.bind_some, Prod.map, id, trimStart_stop solid, closed _ rest]
    cases keyword? ")" (Text.trimStart left) <;> rfl

/-- A back quote ends what a call is read from, as long as no quote is open in front of it. -/
theorem call?_guarded (bare : ∀ c ∈ word.toList, Bare c) : Guarded '\x60' (call? word) := by
  have absent : '\x60' ∉ word.toList := fun member => (bare _ member).2.2 rfl
  rw [call?_eq]
  exact .bind (callOpening?_endsAt absent (by decide) (by decide)) (callOpening?_plain bare)
    (argument?_guarded (by decide) (by decide) (by decide))

/-! ## No call in a call -/

/-- What stands in front of the quotes of a call: the keyword and a parenthesis, with blanks behind each. -/
def Opening (letters opening : List Char) : Prop :=
  ∃ gap gap', opening = letters ++ (gap ++ '(' :: gap') ∧ (∀ c ∈ gap, Text.isBlank c) ∧
    ∀ c ∈ gap', Text.isBlank c

/-- A text that starts with a call, what the call names, and what is left. -/
inductive IsCall (letters : List Char) : List Char → List Char → List Char → Prop
  | mk {opening path gap left : List Char} {quote close : Char} (made : Opening letters opening)
      (opens : isQuote quote) (closes : isQuote close) (within : ∀ c ∈ path, inQuotes c)
      (blank : ∀ c ∈ gap, Text.isBlank c) :
      IsCall letters (opening ++ quote :: (path ++ close :: (gap ++ ')' :: left))) path left

theorem isCall {cs path left : List Char} (found : call? word cs = some (path, left)) :
    IsCall word.toList cs path left := by
  rw [call?_eq] at found
  obtain ⟨rest, first, second⟩ := Option.bind_eq_some_iff.mp found
  obtain ⟨gap, gap', rfl, blank, blank'⟩ := callOpening?_eq_some first
  obtain ⟨quote, close, gap'', rfl, opens, closes, within, blank''⟩ := argument?_eq_some second
  have made : Opening word.toList (word.toList ++ (gap ++ '(' :: gap')) := ⟨gap, gap', rfl, blank, blank'⟩
  have whole : IsCall word.toList _ path left := .mk made opens closes within blank''
  simpa using whole

theorem not_isLower_of_isBlank {c : Char} (blank : Text.isBlank c) : ¬ c.isLower := by
  intro lower
  obtain ⟨low, high⟩ := (Bool.and_eq_true ..).mp lower
  have low : 97 ≤ c.toNat := UInt32.le_iff_toNat_le.mp (of_decide_eq_true low)
  have high : c.toNat ≤ 122 := UInt32.le_iff_toNat_le.mp (of_decide_eq_true high)
  simp only [Text.isBlank, Bool.or_eq_true, Bool.and_eq_true, decide_eq_true_eq, beq_iff_eq] at blank
  omega

section Letters

variable {letters opening other lead more : List Char}

private theorem Opening.countP (made : Opening letters opening) (lower : ∀ c ∈ letters, c.isLower) :
    opening.countP Char.isLower = letters.length := by
  obtain ⟨gap, gap', rfl, blank, blank'⟩ := made
  rw [List.countP_append, List.countP_append, List.countP_cons_of_neg (by decide), List.countP_eq_length.mpr lower,
    List.countP_eq_zero.mpr fun c member => not_isLower_of_isBlank (blank c member),
    List.countP_eq_zero.mpr fun c member => not_isLower_of_isBlank (blank' c member)]
  rfl

theorem not_quote_of_isLower {c : Char} (lower : c.isLower) : ¬ isQuote c := by
  intro quote
  simp only [isQuote, Bool.or_eq_true, beq_iff_eq] at quote
  rcases quote with rfl | rfl <;> exact absurd lower (by decide)

private theorem unquoted_of_isBlank {c : Char} (blank : Text.isBlank c) : !isQuote c := by
  simp [isQuote, (bare_of_isBlank blank).1, (bare_of_isBlank blank).2.1]

private theorem Opening.unquoted (made : Opening letters opening) (lower : ∀ c ∈ letters, c.isLower) :
    ∀ c ∈ opening, !isQuote c := by
  obtain ⟨gap, gap', rfl, blank, blank'⟩ := made
  intro c member
  simp only [List.mem_append, List.mem_cons] at member
  rcases member with inWord | inGap | rfl | inGap
  · rw [Bool.not_eq_true', ← Bool.not_eq_true]
    exact not_quote_of_isLower (lower c inWord)
  · exact unquoted_of_isBlank (blank c inGap)
  · decide
  · exact unquoted_of_isBlank (blank' c inGap)

private theorem Opening.exists_cons (made : Opening letters opening) (lower : ∀ c ∈ letters, c.isLower)
    (nonempty : letters ≠ []) : ∃ c tail, opening = c :: tail ∧ c.isLower := by
  obtain ⟨gap, gap', rfl, -⟩ := made
  obtain ⟨c, tail, rfl⟩ := List.exists_cons_of_ne_nil nonempty
  exact ⟨c, tail ++ (gap ++ '(' :: gap'), rfl, lower c List.mem_cons_self⟩

/-- In an opening no other starts behind its first character. -/
theorem Opening.not_inside (made : Opening letters opening) (made' : Opening letters other)
    (lower : ∀ c ∈ letters, c.isLower) (nonempty : letters ≠ []) (whole : opening = lead ++ (other ++ more)) :
    lead = [] := by
  have counted := congrArg (List.countP Char.isLower) whole
  rw [List.countP_append, List.countP_append, made.countP lower, made'.countP lower] at counted
  have none : lead.countP Char.isLower = 0 := by omega
  obtain ⟨c, tail, rfl, first⟩ := made.exists_cons lower nonempty
  cases lead with
  | nil => rfl
  | cons c lead =>
    obtain ⟨rfl, -⟩ := List.cons.inj whole
    exact absurd first (List.countP_eq_zero.mp none _ List.mem_cons_self)

theorem IsCall.exists_cons {cs path left : List Char} (call : IsCall letters cs path left)
    (lower : ∀ c ∈ letters, c.isLower) (nonempty : letters ≠ []) : ∃ c tail, cs = c :: tail ∧ c.isLower := by
  obtain ⟨made, -, -, -, -⟩ := call
  obtain ⟨c, tail, rfl, first⟩ := made.exists_cons lower nonempty
  exact ⟨c, _, rfl, first⟩

/-- The first quote of a text ends the opening of the call that the text starts with. -/
theorem IsCall.split {quote : Char} {rest path left : List Char}
    (call : IsCall letters (lead ++ quote :: rest) path left) (lower : ∀ c ∈ letters, c.isLower)
    (unquoted : ∀ c ∈ lead, !isQuote c) (opens : isQuote quote) :
    Opening letters lead ∧ ∃ close gap, rest = path ++ close :: (gap ++ ')' :: left) ∧ isQuote close := by
  generalize whole : lead ++ quote :: rest = cs at call
  obtain @⟨opening, path, gap, left, quote', close, made, opens', closes, -, -⟩ := call
  obtain ⟨more, rfl, same⟩ := exists_of_append_eq unquoted (by simpa using opens') whole
  cases more with
  | nil => exact ⟨by simpa using made, close, gap, (List.cons.inj same).2, closes⟩
  | cons c more =>
    obtain ⟨rfl, -⟩ := List.cons.inj same
    have := made.unquoted lower quote (List.mem_append_right _ List.mem_cons_self)
    rw [opens] at this
    exact absurd this (by decide)

private theorem unquoted_of_inQuotes {c : Char} (within : inQuotes c) : !isQuote c :=
  ((Bool.and_eq_true ..).mp within).1

/-- What a call names whose first quote closes another starts behind that quote. -/
theorem IsCall.of_close {gap left path' left' : List Char} {close : Char} (closes : isQuote close)
    (call : IsCall letters (lead ++ close :: (gap ++ ')' :: left)) path' left') (lower : ∀ c ∈ letters, c.isLower)
    (unquoted : ∀ c ∈ lead, !isQuote c) (blank : ∀ c ∈ gap, Text.isBlank c) :
    ∃ more, path' = gap ++ ')' :: more := by
  obtain ⟨-, close', gap', same, closes'⟩ := call.split lower unquoted closes
  have closing : ∀ c ∈ gap ++ [')'], !isQuote c := by
    intro c member
    rcases List.mem_append.mp member with inGap | isClosing
    · exact unquoted_of_isBlank (blank c inGap)
    · rw [List.mem_singleton.mp isClosing]
      decide
  rw [List.append_cons] at same
  obtain ⟨more, rfl, -⟩ := exists_of_append_eq closing (by simpa using closes') same
  exact ⟨more, (List.append_cons ..).symm⟩

/-- No letter stands at the head of a text that starts between the closing quote of a call and its end. -/
theorem not_isLower_of_closing {c : Char} {gap left inner : List Char} (blank : ∀ c ∈ gap, Text.isBlank c)
    (closing : gap ++ ')' :: left = more ++ c :: inner) (longer : left.length < (c :: inner).length) :
    ¬ c.isLower := by
  rw [List.append_cons] at closing
  rcases List.append_eq_append_iff.mp closing with ⟨beyond, -, rfl⟩ | ⟨half, ended, same⟩
  · rw [List.length_append] at longer
    omega
  · cases half with
    | nil =>
      rw [same] at longer
      exact absurd longer (Nat.lt_irrefl _)
    | cons d half =>
      obtain ⟨rfl, -⟩ := List.cons.inj same
      have member : c ∈ gap ++ [')'] := ended ▸ List.mem_append_right _ List.mem_cons_self
      rcases List.mem_append.mp member with inGap | isClosing
      · exact not_isLower_of_isBlank (blank c inGap)
      · rw [List.mem_singleton.mp isClosing]
        decide

/-- What a call names that starts inside another begins with the parenthesis that closes the other. -/
theorem IsCall.inside {cs path left inner path' left' : List Char} (call : IsCall letters cs path left)
    (lower : ∀ c ∈ letters, c.isLower) (nonempty : letters ≠ []) (whole : cs = lead ++ inner) (behind : lead ≠ [])
    (longer : left.length < inner.length) (call' : IsCall letters inner path' left') :
    ∃ gap more, path' = gap ++ ')' :: more ∧ ∀ c ∈ gap, Text.isBlank c := by
  obtain ⟨c, tail, rfl, isLetter⟩ := call'.exists_cons lower nonempty
  obtain @⟨opening, path, gap, left, quote, close, made, opens, closes, within, blank⟩ := call
  have letter_ne {mark : Char} (quoted : isQuote mark) : mark ≠ c := by
    rintro rfl
    exact not_quote_of_isLower isLetter quoted
  rcases List.append_eq_append_iff.mp whole with ⟨crossed, rfl, reach⟩ | ⟨half, rfl, inner_eq⟩
  · -- The other call starts behind the opening: not at the quote there.
    cases crossed with
    | nil => exact absurd (List.cons.inj reach).1 (letter_ne opens)
    | cons mark crossed =>
      rcases List.append_eq_append_iff.mp (List.cons.inj reach).2 with ⟨beyond, rfl, reach'⟩ | ⟨half, rfl, inner_eq⟩
      · -- Nor behind what the call names, where no letter stands.
        cases beyond with
        | nil => exact absurd (List.cons.inj reach').1 (letter_ne closes)
        | cons mark' beyond =>
          exact absurd isLetter (not_isLower_of_closing blank (List.cons.inj reach').2 longer)
      · have unquoted : ∀ c ∈ half, !isQuote c := fun c member =>
          unquoted_of_inQuotes (within c (List.mem_append_right _ member))
        rw [inner_eq] at call'
        obtain ⟨more, named⟩ := call'.of_close closes lower unquoted blank
        exact ⟨gap, more, named, blank⟩
  · -- It starts in the opening, which no other does.
    have unquoted : ∀ c ∈ half, !isQuote c := fun c member =>
      made.unquoted lower c (List.mem_append_right _ member)
    rw [inner_eq] at call'
    obtain ⟨made', -⟩ := call'.split lower unquoted opens
    have whole : lead ++ half = lead ++ (half ++ []) := by rw [List.append_nil]
    exact absurd (made.not_inside made' lower nonempty whole) behind

end Letters

/-- No call whose argument is kept starts inside another one. -/
theorem call?_apart {keep : List Char → Bool} (lower : ∀ c ∈ word.toList, c.isLower) (nonempty : word.toList ≠ [])
    (dropped : ∀ gap more, (∀ c ∈ gap, Text.isBlank c) → keep (gap ++ ')' :: more) = false) :
    Apart keep (call? word) where
  ends cs path left found := by
    obtain @⟨opening, path, gap, left, quote, close, -, -, -, -, -⟩ := isCall found
    exact ⟨opening ++ quote :: (path ++ close :: gap), ')', by simp, by decide⟩
  inside cs path left found lead inner whole behind longer path' left' found' := by
    obtain ⟨gap, more, rfl, blank⟩ := (isCall found).inside lower nonempty whole behind longer (isCall found')
    exact dropped gap more blank

end ReviewContext.Source.Imports
