import ReviewContext.Proofs.Source.Reading
import ReviewContext.Proofs.Source.Scan
import ReviewContext.Source.Stripped

/-! # Quotes in code

Cutting leaves no quote unclosed in code: what looks like an unclosed quote in front of a boundary stands in a
literal, and so does everything from the last quote before it. That holds where every quote opens a literal. The
one that opens none is followed by another, in a character literal.
-/

namespace ReviewContext.Source

/-- Quotes as JavaScript has them: each of the three opens a literal. -/
structure Quoting (style : CommentStyle) : Prop where
  prose : style.docstrings = false
  marker : style.lineMarker = ['/', '/']
  quotes : style.quotes = ['"', '\'', '\x60']

/-- For each quote of a text that nothing behind it closes, the marks of it and of what is in front of it. -/
def Sealed (text : List Char) (marks : List Bool) : Prop :=
  ∀ front lead quote inner, text = front ++ (lead ++ quote :: inner) → (∀ c ∈ lead, Bare c) → isQuote quote →
    (∀ c ∈ inner, inQuotes c) →
      ∃ others after, marks = others ++ (List.replicate (lead.length + 1) true ++ after) ∧
        others.length = front.length

/-- Behind the first character the text is sealed as well. -/
theorem Sealed.tail {c : Char} {cs : List Char} {mark : Bool} {marks : List Bool}
    (sealed : Sealed (c :: cs) (mark :: marks)) : Sealed cs marks := by
  intro front lead quote inner whole bare quotes within
  obtain ⟨others, after, split, length⟩ :=
    sealed (c :: front) lead quote inner (by rw [whole, List.cons_append]) bare quotes within
  cases others with
  | nil => cases length
  | cons other others => exact ⟨others, after, (List.cons.inj split).2, Nat.succ.inj length⟩

namespace Token

/-- A literal is closed, or it ends with its line or with the text. -/
theorem literalLength_ends (quote : Char) (multiline : Bool) (cs : List Char) :
    (∃ text, cs.take (literalLength quote multiline cs) = text ++ [quote]) ∨
      (∃ rest, cs.drop (literalLength quote multiline cs) = '\n' :: rest) ∨
        cs.drop (literalLength quote multiline cs) = [] := by
  induction cs using literalLength.induct quote multiline with
  | case1 => exact .inr (.inr rfl)
  | case2 => exact .inr (.inr rfl)
  | case3 c cs ih =>
    rw [literalLength]
    rcases ih with ⟨text, closed⟩ | ends
    · refine .inl ⟨'\\' :: c :: text, ?_⟩
      rw [List.take_succ_cons, List.take_succ_cons, closed]
      rfl
    · exact .inr ends
  | case4 c cs alone more newline =>
    have plain := ne_escape alone more
    rw [literalLength_cons plain, if_pos newline, newline.1]
    exact .inr (.inl ⟨cs, rfl⟩)
  | case5 cs alone more sameLine =>
    have plain := ne_escape alone more
    rw [literalLength_cons plain, if_neg sameLine, if_pos rfl]
    exact .inl ⟨[], rfl⟩
  | case6 c cs alone more sameLine inside ih =>
    have plain := ne_escape alone more
    rw [literalLength_cons plain, if_neg sameLine, if_neg inside]
    rcases ih with ⟨text, closed⟩ | ends
    · refine .inl ⟨c :: text, ?_⟩
      rw [List.take_succ_cons, closed]
      rfl
    · exact .inr ends

variable {style : CommentStyle} {before text rest : List Char} {found : List Token} {token : Token} {c d : Char}

private theorem eq_code_of_quote {quote : Char} (kept : quote ∈ token.kept) (quotes : isQuote quote)
    (code : token.isLiteral = false) : token = .code quote := by
  have not_newline {cs : List Char} : quote ∉ newlines cs := fun member => by
    rw [beq_iff_eq.mp (List.mem_filter.mp member).2] at quotes
    exact absurd quotes (by decide)
  cases token with
  | code c => rw [List.mem_singleton.mp kept]
  | literal cs => cases code
  | lineComment cs => exact absurd kept not_newline
  | docstring cs => exact absurd kept not_newline
  | blockComment cs =>
    rcases List.mem_cons.mp kept with rfl | newline
    · exact absurd quotes (by decide)
    · exact absurd newline not_newline

/-- What starts no comment is kept as it is. -/
theorem kept_eq_text (quoting : Quoting style) (other : c ≠ '/') (cs : List Char) :
    (first style before c cs).kept = (first style before c cs).text := by
  have standing := heads style before c cs
  generalize first style before c cs = token at standing ⊢
  cases standing with
  | docstring opens => simp [quoting.prose] at opens
  | lineComment prose opens => simp [quoting.marker, other.symm] at opens
  | blockComment prose unmarked opens => simp [other.symm] at opens
  | literal prose unmarked unblocked opens => rfl
  | code prose unmarked unblocked unquoted => rfl

private theorem Scan.exists_cons (scan : Scan style rest before (c :: text) found) : ∃ cs more tail,
    found = first style before c cs :: more ∧ c :: text = (first style before c cs).text ++ tail := by
  generalize same : c :: text = whole at scan
  cases scan with
  | done => cases same
  | @step before text token c' cs found head whole tail =>
    have some := first_text_length_pos style before c' cs
    subst head
    cases shape : (first style before c' cs).text with
    | nil => simp [shape] at some
    | cons e inner =>
      rw [shape] at same whole
      obtain ⟨rfl, rfl⟩ := List.cons.inj same
      obtain ⟨rfl, -⟩ := List.cons.inj whole
      exact ⟨cs, found, text, rfl, by rw [shape]⟩

private theorem Scan.kept_cons (quoting : Quoting style) (other : c ≠ '/')
    (scan : Scan style rest before (c :: text) found) : ∃ more, found.flatMap kept = c :: more := by
  obtain ⟨cs, more, tail, rfl, whole⟩ := scan.exists_cons
  have some := first_text_length_pos style before c cs
  rw [List.flatMap_cons, kept_eq_text quoting other]
  cases shape : (first style before c cs).text with
  | nil => simp [shape] at some
  | cons e inner =>
    rw [shape] at whole
    obtain ⟨rfl, -⟩ := List.cons.inj whole
    exact ⟨_, rfl⟩

section Unclosed

variable {lead inner : List Char} {quote : Char}

/-- A quote in code has another quote behind it. -/
theorem Scan.code_quote (quoting : Quoting style) (single : d ≠ '\'') {cs : List Char} (quotes : isQuote quote)
    (head : first style before c cs = .code quote) (whole : c :: cs = quote :: (text ++ d :: rest))
    (tail : Scan style (d :: rest) (quote :: before) text found) : ∃ more, found.flatMap kept = '\'' :: more := by
  have standing : Heads style before c cs (.code quote) := head ▸ heads ..
  obtain ⟨rfl, rfl⟩ := List.cons.inj whole
  cases standing with
  | code prose unmarked unblocked unquoted =>
    have opens : style.quotes.contains c := by
      rw [quoting.quotes]
      simp only [isQuote, Bool.or_eq_true, beq_iff_eq] at quotes
      rcases quotes with rfl | rfl <;> rfl
    rw [opens, Bool.true_and, Bool.not_eq_true', Bool.not_eq_false] at unquoted
    have behind := ((Bool.and_eq_true ..).mp unquoted).2
    cases text with
    | nil => simp [single.symm] at behind
    | cons e text =>
      obtain rfl : '\'' = e := by simpa using behind
      exact tail.kept_cons quoting (by decide)

/-- A literal that holds no second quote ends with its line. -/
theorem Scan.open_literal (quoting : Quoting style) (newline : d ≠ '\n') {cs : List Char}
    (quotes : isQuote quote) (head : first style before c cs = .literal (lead ++ quote :: inner))
    (whole : c :: cs = lead ++ quote :: inner ++ (text ++ d :: rest))
    (tail : Scan style (d :: rest) ((lead ++ quote :: inner).reverse ++ before) text found)
    (bare : ∀ c ∈ lead, Bare c) (within : ∀ c ∈ inner, inQuotes c) :
    ∃ more, found.flatMap kept = '\n' :: more := by
  have standing : Heads style before c cs (.literal (lead ++ quote :: inner)) := head ▸ heads ..
  generalize shape : lead ++ quote :: inner = literal at standing
  cases standing with
  | literal prose unmarked unblocked opens =>
    rw [List.take_succ_cons] at shape
    obtain ⟨rfl, rfl⟩ : lead = [] ∧ quote = c := by
      cases lead with
      | nil => exact ⟨rfl, (List.cons.inj shape).1⟩
      | cons e lead =>
        obtain ⟨rfl, -⟩ := List.cons.inj shape
        have notQuote := bare e List.mem_cons_self
        simp [quoting.quotes, notQuote.1, notQuote.2.1, notQuote.2.2] at opens
    have ends := literalLength_ends quote (style.multiline.contains quote) cs
    have inner_eq := (List.cons.inj shape).2
    generalize literalLength quote (style.multiline.contains quote) cs = length at inner_eq ends
    have left : cs.drop length = text ++ d :: rest := by
      have cs_eq : cs = inner ++ (text ++ d :: rest) := (List.cons.inj whole).2
      rw [← List.take_append_drop length cs, ← inner_eq] at cs_eq
      exact List.append_cancel_left cs_eq
    rcases ends with ⟨more, closed⟩ | ⟨more, ended⟩ | ended
    · rw [← inner_eq] at closed
      have inside : inQuotes quote := within quote (closed ▸ List.mem_append_right _ List.mem_cons_self)
      exact absurd inside (isQuote_not_inQuotes quotes)
    · rw [left] at ended
      cases text with
      | nil => exact absurd (List.cons.inj ended).1 newline
      | cons e text =>
        obtain ⟨rfl, -⟩ := List.cons.inj ended
        exact tail.kept_cons quoting (by decide)
    · rw [left] at ended
      cases (List.append_eq_nil_iff.mp ended).2

private theorem Scan.not_unclosed (quoting : Quoting style) (newline : d ≠ '\n') (single : d ≠ '\'')
    (scan : Scan style (d :: rest) before text found) : ¬ Unclosed (found.flatMap kept) := by
  induction scan with
  | done =>
    rintro ⟨lead, quote, inner, whole, -⟩
    cases (List.append_eq_nil_iff.mp whole.symm).2
  | @step before text token c cs found head whole tail ih =>
    rintro ⟨lead, quote, inner, split, bare, quotes, within⟩
    rw [List.flatMap_cons] at split
    rcases List.append_eq_append_iff.mp split with ⟨more, rfl, left⟩ | ⟨more, taken, left⟩
    · exact ih ⟨more, quote, inner, left, fun c member => bare c (List.mem_append_right _ member), quotes, within⟩
    · cases more with
      | nil => exact ih ⟨[], quote, inner, left.symm, fun _ member => (nomatch member), quotes, within⟩
      | cons mark more =>
        obtain ⟨rfl, rfl⟩ := List.cons.inj left
        have behind (c : Char) (member : c ∈ found.flatMap kept) : inQuotes c :=
          within c (List.mem_append_right _ member)
        cases literal : token.isLiteral with
        | false =>
          have kept : quote ∈ token.kept := taken ▸ List.mem_append_right _ List.mem_cons_self
          obtain rfl := eq_code_of_quote kept quotes literal
          obtain ⟨_, next⟩ := Scan.code_quote quoting single quotes head whole tail
          exact absurd (behind '\'' (next ▸ List.mem_cons_self)) (by decide)
        | true =>
          cases token with
          | literal cs =>
            obtain rfl : cs = lead ++ quote :: more := taken
            obtain ⟨_, next⟩ := Scan.open_literal quoting newline quotes head whole tail bare
              fun c member => within c (List.mem_append_left _ member)
            exact absurd (behind '\n' (next ▸ List.mem_cons_self)) (by decide)
          | _ => cases literal

theorem quotation_cons (token : Token) (found : List Token) : quotation (token :: found) =
    List.replicate token.kept.length token.isLiteral ++ quotation found := by
  rw [quotation, List.flatMap_cons, List.map_const']
  rfl

/-- The token that an unclosed quote in front of a boundary stands in is a literal. -/
theorem Scan.isLiteral_of_unclosed (quoting : Quoting style) (newline : d ≠ '\n') (single : d ≠ '\'')
    {front half : List Char} (scan : Scan style (d :: rest) before text (token :: found))
    (holds : token.kept = front ++ (lead ++ quote :: half)) (behind : inner = half ++ found.flatMap kept)
    (bare : ∀ c ∈ lead, Bare c) (quotes : isQuote quote) (within : ∀ c ∈ inner, inQuotes c) :
    token.isLiteral = true := by
  cases literal : token.isLiteral with
  | true => rfl
  | false =>
    obtain rfl := eq_code_of_quote (holds ▸ by simp) quotes literal
    have none : front = [] := by
      have length := congrArg List.length holds
      simp only [Token.kept, List.length_append, List.length_cons, List.length_nil] at length
      exact List.eq_nil_of_length_eq_zero (by omega)
    have whole : (Token.code quote :: found).flatMap kept = lead ++ quote :: inner := by
      rw [List.flatMap_cons, holds, none, behind, List.nil_append, List.append_assoc, List.cons_append]
    exact absurd ⟨lead, quote, inner, whole, bare, quotes, within⟩ (scan.not_unclosed quoting newline single)

/-- In front of a quote that opens a literal, every quote that is still open belongs to a literal. -/
theorem Scan.sealed (quoting : Quoting style) (newline : d ≠ '\n') (single : d ≠ '\'')
    (scan : Scan style (d :: rest) before text found) : Sealed (found.flatMap kept) (quotation found) := by
  intro front lead quote inner split bare quotes within
  induction scan generalizing front with
  | done => cases (List.append_eq_nil_iff.mp (List.append_eq_nil_iff.mp split.symm).2).2
  | @step before text token c cs found head whole tail ih =>
    have later : ¬ Unclosed (found.flatMap kept) := tail.not_unclosed quoting newline single
    rw [List.flatMap_cons] at split
    rw [quotation_cons]
    rcases List.append_eq_append_iff.mp split with ⟨more, rfl, left⟩ | ⟨more, taken, left⟩
    · obtain ⟨others, after, same, length⟩ := ih more left
      refine ⟨List.replicate token.kept.length token.isLiteral ++ others, after, ?_, ?_⟩
      · rw [same, List.append_assoc]
      · rw [List.length_append, List.length_replicate, length, List.length_append]
    -- The token holds the quote, or only some of what is in front of it.
    rcases List.append_eq_append_iff.mp left with ⟨half, rfl, behind⟩ | ⟨half, rfl, behind⟩
    · cases half with
      | nil => exact absurd ⟨[], quote, inner, behind.symm, fun _ member => (nomatch member), quotes, within⟩ later
      | cons mark half =>
        obtain ⟨rfl, inner_eq⟩ := List.cons.inj behind
        have here : Scan style (d :: rest) before (token.text ++ text) (token :: found) := .step head whole tail
        have literal := here.isLiteral_of_unclosed quoting newline single taken inner_eq bare quotes within
        have length : token.kept.length = front.length + (lead.length + 1 + half.length) := by
          rw [taken, List.length_append, List.length_append, List.length_cons]
          omega
        refine ⟨List.replicate front.length true, List.replicate half.length true ++ quotation found, ?_, by simp⟩
        rw [literal, length, List.replicate_add, List.replicate_add, List.append_assoc, List.append_assoc]
    · have bare_half : ∀ c ∈ half, Bare c := fun c member => bare c (List.mem_append_right _ member)
      exact absurd ⟨half, quote, inner, behind, bare_half, quotes, within⟩ later

end Unclosed

end Token

end ReviewContext.Source
