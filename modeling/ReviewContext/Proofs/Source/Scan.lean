import Mathlib.Data.List.Basic
import ReviewContext.Source.Token

/-! # Where the cutting of a source stands

Cutting goes from token to token, and a place between two of them is a boundary. The first token at a boundary
is settled by what follows, but for one test that looks back two characters. So a part of a source that
begins and ends at a boundary may be exchanged: what was cut before it stays, and what is cut behind it stays
if the last of its characters is the same and no backslash.
-/

namespace ReviewContext.Source

namespace Token

variable {style : CommentStyle} {before : List Char}

/-- The tokens of `rest` where `before` stands in front of it, the nearest character first. -/
def cut (style : CommentStyle) (before rest : List Char) : List Token :=
  collect style before rest []

private theorem collect_eq (style : CommentStyle) (before rest : List Char) (found : List Token) :
    collect style before rest found = found.reverse ++ cut style before rest := by
  unfold cut
  match rest with
  | [] => rw [collect, collect, List.reverse_nil, List.append_nil]
  | c :: cs =>
    rw [collect, collect]
    rw [collect_eq, collect_eq _ _ _ [_], List.reverse_cons, List.append_assoc, List.reverse_singleton]
termination_by rest.length
decreasing_by
  all_goals
    have := first_text_length_pos style before c cs
    simp only [List.length_drop, List.length_cons]
    omega

@[simp]
theorem cut_nil : cut style before [] = [] := by
  rw [cut, collect, List.reverse_nil]

/-- The first token, and behind it the tokens of what it leaves. -/
theorem cut_cons (c : Char) (cs : List Char) : cut style before (c :: cs) =
    first style before c cs :: cut style ((first style before c cs).text.reverse ++ before)
      ((c :: cs).drop (first style before c cs).text.length) := by
  rw [cut, collect]
  exact collect_eq ..

theorem cut_of_first {token : Token} {c : Char} {cs rest : List Char} (head : first style before c cs = token)
    (whole : c :: cs = token.text ++ rest) :
    cut style before (c :: cs) = token :: cut style (token.text.reverse ++ before) rest := by
  rw [cut_cons, head, whole, List.drop_left]

/-! ## Boundaries -/

/-- From a place where `before` stands in front, `text` is cut into `found`, and `rest` is left. -/
inductive Scan (style : CommentStyle) (rest : List Char) : List Char → List Char → List Token → Prop
  | done {before : List Char} : Scan style rest before [] []
  | step {before text : List Char} {token : Token} {c : Char} {cs : List Char} {found : List Token}
      (head : first style before c cs = token) (whole : c :: cs = token.text ++ (text ++ rest))
      (tail : Scan style rest (token.text.reverse ++ before) text found) :
      Scan style rest before (token.text ++ text) (token :: found)

variable {text rest : List Char} {found : List Token}

/-- Tokens at the head of a text that make up its front are a scan of that front. -/
theorem Scan.of_begun (begun : found <+: cut style before (text ++ rest))
    (whole : found.flatMap Token.text = text) : Scan style rest before text found := by
  induction found generalizing before text with
  | nil =>
    subst whole
    exact .done
  | cons token found ih =>
    rw [List.flatMap_cons] at whole
    subst whole
    cases source : token.text ++ found.flatMap Token.text ++ rest with
    | nil =>
      rw [source, cut_nil] at begun
      cases List.prefix_nil.mp begun
    | cons c cs =>
      rw [source, cut_cons, List.cons_prefix_cons] at begun
      obtain ⟨rfl, begun⟩ := begun
      rw [← source, List.append_assoc, List.drop_left] at begun
      exact .step rfl (by rw [← source, List.append_assoc]) (ih begun rfl)

/-- The tokens of a text are those of its front, if that can be scanned, and those of the rest. -/
theorem Scan.cut_eq (scan : Scan style rest before text found) :
    cut style before (text ++ rest) = found ++ cut style (text.reverse ++ before) rest := by
  induction scan with
  | done => rfl
  | @step before text token c cs found head whole tail ih =>
    rw [List.append_assoc, ← whole, cut_of_first head whole, ih, List.reverse_append, List.append_assoc,
      List.cons_append]

/-! ## What a token depends on -/

private theorem blockLength_pos {nested : Bool} {depth : Nat} {source : List Char} (more : source ≠ []) :
    0 < blockLength nested depth source := by
  fun_cases blockLength nested depth source <;> simp_all

/-- A block comment that ends inside a text ends there whatever follows. -/
theorem blockLength_append {nested : Bool} {depth : Nat} {text rest : List Char} (follows : rest ≠ [])
    (ends : blockLength nested depth (text ++ rest) ≤ text.length) (other : List Char) :
    blockLength nested depth (text ++ other) = blockLength nested depth (text ++ rest) := by
  induction depth, text using blockLength.induct nested with
  | case1 depth => exact absurd (blockLength_pos follows) (Nat.not_lt.mpr ends)
  | case2 depth c =>
    obtain ⟨h, rest, rfl⟩ := List.exists_cons_of_ne_nil follows
    have some : 0 < blockLength nested depth (h :: rest) := blockLength_pos (List.cons_ne_nil h rest)
    simp only [List.cons_append, List.nil_append, List.length_singleton, blockLength] at ends
    split at ends
    · split at ends <;> omega
    · split at ends <;> omega
  | case3 a b cs closes => simp only [List.cons_append, blockLength, closes, and_self, ↓reduceIte]
  | case4 a b cs closes outer ih =>
    simp only [List.cons_append, blockLength, closes, and_self, ↓reduceIte, List.length_cons] at ends ⊢
    rw [ih (by omega)]
  | case5 depth a b cs open_ opens ih =>
    simp only [List.cons_append, blockLength, if_neg open_, if_pos opens, List.length_cons] at ends ⊢
    rw [ih (by omega)]
  | case6 depth a b cs open_ code ih =>
    simp only [List.cons_append, blockLength, if_neg open_, if_neg code, List.length_cons] at ends ih ⊢
    rw [ih (by omega)]

theorem ne_escape {c : Char} {cs : List Char} (last : c = '\\' → cs = [] → False)
    (inner : ∀ d ds, c = '\\' → cs = d :: ds → False) : c ≠ '\\' := by
  intro escape
  cases cs with
  | nil => exact last escape rfl
  | cons d ds => exact inner d ds escape rfl

/-- A character that is no backslash ends a literal if it is the quote, or a newline where none may stand. -/
theorem literalLength_cons {quote c : Char} {multiline : Bool} (plain : c ≠ '\\') (cs : List Char) :
    literalLength quote multiline (c :: cs) =
      if c = '\n' ∧ !multiline then 0 else if c = quote then 1 else literalLength quote multiline cs + 1 := by
  rw [literalLength]
  · exact fun same _ => plain same
  · exact fun _ _ same _ => plain same

private theorem literalLength_pos {quote h : Char} {multiline : Bool} (sameLine : h ≠ '\n') (rest : List Char) :
    0 < literalLength quote multiline (h :: rest) := by
  by_cases escape : h = '\\'
  · subst escape
    cases rest <;> simp [literalLength]
  · rw [literalLength_cons escape, if_neg fun newline => sameLine newline.1]
    split <;> omega

/-- A literal that ends inside a text ends there whatever follows. -/
theorem literalLength_append {quote h : Char} {multiline : Bool} {text rest : List Char} (sameLine : h ≠ '\n')
    (ends : literalLength quote multiline (text ++ h :: rest) ≤ text.length) (other : List Char) :
    literalLength quote multiline (text ++ h :: other) = literalLength quote multiline (text ++ h :: rest) := by
  induction text using literalLength.induct quote multiline with
  | case1 => exact absurd (literalLength_pos sameLine rest) (Nat.not_lt.mpr ends)
  | case2 => simp [literalLength] at ends
  | case3 head cs ih =>
    simp only [List.cons_append, literalLength, List.length_cons] at ends ⊢
    rw [ih (by omega)]
  | case4 c cs alone more newline =>
    have plain := ne_escape alone more
    simp only [List.cons_append, literalLength_cons plain, if_pos newline]
  | case5 cs alone more sameLine =>
    have plain := ne_escape alone more
    simp only [List.cons_append, literalLength_cons plain, if_neg sameLine, ↓reduceIte]
  | case6 c cs alone more sameLine inside ih =>
    have plain := ne_escape alone more
    simp only [List.cons_append, literalLength_cons plain, if_neg sameLine, if_neg inside, List.length_cons]
      at ends ⊢
    rw [ih (by omega)]

private theorem isPrefixOf_append (marker text : List Char) (short : marker.length ≤ text.length) (rest : List Char) :
    marker.isPrefixOf (text ++ rest) = marker.isPrefixOf text := by
  rw [Bool.eq_iff_iff, List.isPrefixOf_iff_prefix, List.isPrefixOf_iff_prefix]
  exact ⟨fun whole => List.prefix_of_prefix_length_le whole (List.prefix_append text rest) short,
    fun part => part.trans (List.prefix_append text rest)⟩

private theorem docstringLength_cases (quote : Char) (source : List Char) :
    3 ≤ docstringLength quote source ∨ docstringLength quote source = source.length := by
  induction source with
  | nil => exact .inr rfl
  | cons c cs ih =>
    rw [docstringLength, List.length_cons]
    split
    · exact .inl (Nat.le_refl 3)
    · exact ih.imp (Nat.le_succ_of_le ·) (congrArg (· + 1) ·)

/-- A docstring that ends inside a text ends there whatever follows. -/
theorem docstringLength_append {quote : Char} {text rest : List Char} (follows : rest ≠ [])
    (ends : docstringLength quote (text ++ rest) ≤ text.length) (other : List Char) :
    docstringLength quote (text ++ other) = docstringLength quote (text ++ rest) := by
  have more : 0 < rest.length := List.length_pos_of_ne_nil follows
  have room : 3 ≤ text.length := by
    have := docstringLength_cases quote (text ++ rest)
    rw [List.length_append] at this
    omega
  induction text with
  | nil => exact absurd room (by decide)
  | cons c cs ih =>
    have closed (after : List Char) : [quote, quote, quote].isPrefixOf (c :: (cs ++ after)) =
      [quote, quote, quote].isPrefixOf (c :: cs) := isPrefixOf_append [quote, quote, quote] (c :: cs) room after
    simp only [List.cons_append, docstringLength, closed, List.length_cons] at ends ⊢
    split
    · rfl
    · next inside =>
      rw [if_neg inside] at ends
      have := docstringLength_cases quote (cs ++ rest)
      rw [List.length_append] at this
      rw [ih (by omega) (by omega)]

/-- Which token stands at the head of `c :: cs`, form by form. -/
inductive Heads (style : CommentStyle) (before : List Char) (c : Char) (cs : List Char) : Token → Prop
  | docstring (opens : style.docstrings && opensDocstring (c :: cs)) :
      Heads style before c cs (.docstring ((c :: cs).take (docstringLength c (cs.drop 2) + 3)))
  | lineComment (prose : ¬ (style.docstrings && opensDocstring (c :: cs)))
      (opens : style.lineMarker.isPrefixOf (c :: cs)) :
      Heads style before c cs (.lineComment (c :: cs.takeWhile (· != '\n')))
  | blockComment (prose : ¬ (style.docstrings && opensDocstring (c :: cs)))
      (unmarked : ¬ style.lineMarker.isPrefixOf (c :: cs))
      (opens : style.blocks ≠ .absent && ['/', '*'].isPrefixOf (c :: cs)) :
      Heads style before c cs
        (.blockComment ((c :: cs).take (blockLength (style.blocks = .nested) 0 (cs.drop 1) + 2)))
  | literal (prose : ¬ (style.docstrings && opensDocstring (c :: cs)))
      (unmarked : ¬ style.lineMarker.isPrefixOf (c :: cs))
      (unblocked : ¬ (style.blocks ≠ .absent && ['/', '*'].isPrefixOf (c :: cs)))
      (opens : style.quotes.contains c && !insideCharLiteral before cs) :
      Heads style before c cs (.literal ((c :: cs).take (literalLength c (style.multiline.contains c) cs + 1)))
  | code (prose : ¬ (style.docstrings && opensDocstring (c :: cs)))
      (unmarked : ¬ style.lineMarker.isPrefixOf (c :: cs))
      (unblocked : ¬ (style.blocks ≠ .absent && ['/', '*'].isPrefixOf (c :: cs)))
      (unquoted : ¬ (style.quotes.contains c && !insideCharLiteral before cs)) :
      Heads style before c cs (.code c)

/-- The token at the head of a text has one of the forms. -/
theorem heads (style : CommentStyle) (before : List Char) (c : Char) (cs : List Char) :
    Heads style before c cs (first style before c cs) := by
  unfold first
  dsimp only
  split
  · next opens => exact .docstring opens
  next prose =>
  split
  · next opens => exact .lineComment prose opens
  next unmarked =>
  split
  · next opens => exact .blockComment prose unmarked opens
  next unblocked =>
  split
  · next opens => exact .literal prose unmarked unblocked opens
  · next unquoted => exact .code prose unmarked unblocked unquoted

/-- The forms of a token leave no choice. -/
theorem Heads.eq {c : Char} {cs : List Char} {token : Token} (heads : Heads style before c cs token) :
    first style before c cs = token := by
  cases heads with
  | docstring opens => rw [first, if_pos opens]; rfl
  | lineComment prose opens => rw [first, if_neg prose, if_pos opens]
  | blockComment prose unmarked opens => rw [first, if_neg prose, if_neg unmarked, if_pos opens]; rfl
  | literal prose unmarked unblocked opens =>
    rw [first, if_neg prose, if_neg unmarked, if_neg unblocked, if_pos opens]
  | code prose unmarked unblocked unquoted =>
    rw [first, if_neg prose, if_neg unmarked, if_neg unblocked, if_neg unquoted]

/-- The character starts neither a literal nor a comment. -/
def Inert (style : CommentStyle) (c : Char) : Prop :=
  c ∉ style.quotes ∧ style.lineMarker.head?.any (· != c) ∧ c ≠ '/' ∧ c ≠ '"' ∧ c ≠ '\''

instance (style : CommentStyle) (c : Char) : Decidable (Inert style c) :=
  inferInstanceAs (Decidable (_ ∧ _))

theorem Inert.first {c : Char} (inert : Inert style c) (before cs : List Char) : first style before c cs = .code c := by
  obtain ⟨unquoted, unmarked, slash, double, single⟩ := inert
  obtain ⟨h, more, marker⟩ : ∃ h more, style.lineMarker = h :: more := by
    cases marker : style.lineMarker with
    | nil => simp [marker] at unmarked
    | cons h more => exact ⟨h, more, rfl⟩
  rw [marker, List.head?_cons, Option.any_some, bne_iff_ne] at unmarked
  refine Heads.eq (.code ?_ ?_ ?_ ?_)
  · simp [opensDocstring, double.symm, single.symm]
  · rw [marker, List.isPrefixOf_iff_prefix, List.cons_prefix_cons]
    exact fun same => unmarked same.1
  · simp [slash.symm]
  · simp [unquoted]

/-- Characters that start nothing are code, one by one. -/
theorem cut_inert {cs : List Char} (inert : ∀ c ∈ cs, Inert style c) (before rest : List Char) :
    cut style before (cs ++ rest) = cs.map .code ++ cut style (cs.reverse ++ before) rest := by
  induction cs generalizing before with
  | nil => rfl
  | cons c cs ih =>
    obtain ⟨head, later⟩ := List.forall_mem_cons.mp inert
    have whole : c :: (cs ++ rest) = (Token.code c).text ++ (cs ++ rest) := rfl
    rw [List.cons_append, cut_of_first (head.first before _) whole, ih later, List.map_cons, List.reverse_cons,
      List.append_assoc]
    rfl

section Append

variable {c h : Char} {text rest other : List Char}

private theorem opensDocstring_of_few (few : text.length < 2) (plain : h ≠ '"' ∧ h ≠ '\'') :
    opensDocstring (c :: (text ++ h :: rest)) = false := by
  have double : ('"' == h) = false := beq_eq_false_iff_ne.mpr plain.1.symm
  have single : ('\'' == h) = false := beq_eq_false_iff_ne.mpr plain.2.symm
  match text with
  | [] => simp only [opensDocstring, List.nil_append, List.isPrefixOf, double, single, Bool.false_and,
      Bool.and_false, Bool.or_false]
  | [d] => simp only [opensDocstring, List.cons_append, List.nil_append, List.isPrefixOf, double, single,
      Bool.false_and, Bool.and_false, Bool.or_false]

private theorem docstrings_append (plain : style.docstrings → h ≠ '"' ∧ h ≠ '\'') :
    (style.docstrings && opensDocstring (c :: (text ++ h :: other))) =
      (style.docstrings && opensDocstring (c :: (text ++ h :: rest))) := by
  cases known : style.docstrings with
  | false => rfl
  | true =>
    by_cases few : text.length < 2
    · rw [opensDocstring_of_few few (plain known), opensDocstring_of_few few (plain known)]
    · have long (quote : Char) : [quote, quote, quote].length ≤ (c :: text).length := by
        simp only [List.length_cons, List.length_nil]
        omega
      simp only [opensDocstring, ← List.cons_append, isPrefixOf_append _ _ (long _)]

private theorem marker_append {marker : List Char} (two : marker.length ≤ 2) :
    marker.isPrefixOf (c :: (text ++ h :: other)) = marker.isPrefixOf (c :: (text ++ h :: rest)) := by
  have long : marker.length ≤ (c :: (text ++ [h])).length := by
    rw [List.length_cons, List.length_append, List.length_singleton]
    omega
  simpa using (isPrefixOf_append _ _ long other).trans (isPrefixOf_append _ _ long rest).symm

private theorem insideCharLiteral_append :
    insideCharLiteral before (text ++ h :: other) = insideCharLiteral before (text ++ h :: rest) := by
  cases text <;> rfl

private theorem le_of_length_take {n : Nat} (ends : ((c :: (text ++ h :: rest)).take n).length ≤ text.length + 1) :
    n ≤ text.length + 1 := by
  rw [List.length_take, List.length_cons, List.length_append, List.length_cons] at ends
  omega

private theorem take_append_cons {n : Nat} (within : n ≤ text.length + 1) (other : List Char) :
    (c :: (text ++ h :: rest)).take n = (c :: (text ++ h :: other)).take n := by
  rw [← List.cons_append, ← List.cons_append, List.take_append_of_le_length within,
    List.take_append_of_le_length within]

/-- A token stays at the head of a text that changes only behind its end. -/
theorem Heads.append {token : Token} (heads : Heads style before c (text ++ h :: rest) token)
    (marker : style.lineMarker.length ≤ 2) (sameLine : h ≠ '\n') (plain : style.docstrings → h ≠ '"' ∧ h ≠ '\'')
    (ends : token.text.length ≤ text.length + 1) : Heads style before c (text ++ h :: other) token := by
  have block : ['/', '*'].length ≤ 2 := Nat.le_refl 2
  cases heads with
  | docstring opens =>
    have within := le_of_length_take ends
    have many : ¬ text.length < 2 := fun few => by
      rw [opensDocstring_of_few few (plain ((Bool.and_eq_true ..).mp opens).1), Bool.and_false] at opens
      cases opens
    obtain ⟨d, e, inner, rfl⟩ : ∃ d e inner, text = d :: e :: inner := by
      cases text with
      | nil => exact absurd Nat.zero_lt_two many
      | cons d inner =>
        cases inner with
        | nil => exact absurd Nat.one_lt_two many
        | cons e inner => exact ⟨d, e, inner, rfl⟩
    have same : docstringLength c ((d :: e :: inner ++ h :: other).drop 2) =
        docstringLength c ((d :: e :: inner ++ h :: rest).drop 2) :=
      docstringLength_append (List.cons_ne_nil h rest) (by simpa using within) _
    rw [docstrings_append plain] at opens
    rw [take_append_cons within other, ← same]
    exact .docstring opens
  | lineComment prose opens =>
    rw [docstrings_append plain] at prose
    rw [marker_append marker] at opens
    have same : (text ++ h :: rest).takeWhile (· != '\n') = (text ++ h :: other).takeWhile (· != '\n') := by
      rw [List.takeWhile_append, List.takeWhile_append]
      split
      · next whole =>
        simp only [Token.text, List.takeWhile_append, if_pos whole, List.length_cons, List.length_append] at ends
        rw [List.takeWhile_cons_of_pos (by simpa using sameLine), List.length_cons] at ends
        omega
      · rfl
    rw [same]
    exact .lineComment prose opens
  | blockComment prose unmarked opens =>
    have within := le_of_length_take ends
    cases text with
    | nil => simp at within
    | cons d inner =>
      have same : blockLength (style.blocks = .nested) 0 ((d :: inner ++ h :: other).drop 1) =
          blockLength (style.blocks = .nested) 0 ((d :: inner ++ h :: rest).drop 1) :=
        blockLength_append (List.cons_ne_nil h rest) (by simpa using within) _
      rw [docstrings_append plain] at prose
      rw [marker_append marker] at unmarked
      rw [marker_append block] at opens
      rw [take_append_cons within other, ← same]
      exact .blockComment prose unmarked opens
  | literal prose unmarked unblocked opens =>
    have within := le_of_length_take ends
    rw [take_append_cons within other, ← literalLength_append sameLine (Nat.le_of_succ_le_succ within) other]
    rw [docstrings_append plain] at prose
    rw [marker_append marker] at unmarked
    rw [marker_append block] at unblocked
    rw [insideCharLiteral_append] at opens
    exact .literal prose unmarked unblocked opens
  | code prose unmarked unblocked unquoted =>
    rw [docstrings_append plain] at prose
    rw [marker_append marker] at unmarked
    rw [marker_append block] at unblocked
    rw [insideCharLiteral_append] at unquoted
    exact .code prose unmarked unblocked unquoted

/-- What was cut stays cut when the text behind it changes, but for its first character. -/
theorem Scan.change {found : List Token} (scan : Scan style (h :: rest) before text found)
    (marker : style.lineMarker.length ≤ 2) (sameLine : h ≠ '\n') (plain : style.docstrings → h ≠ '"' ∧ h ≠ '\'')
    (other : List Char) : Scan style (h :: other) before text found := by
  induction scan with
  | done => exact .done
  | @step before text token c cs found head whole tail ih =>
    have some := first_text_length_pos style before c cs
    rw [head] at some
    obtain ⟨d, inner, shape⟩ := List.exists_cons_of_ne_nil (List.ne_nil_of_length_pos some)
    rw [shape, List.cons_append, List.cons.injEq, ← List.append_assoc] at whole
    obtain ⟨rfl, rfl⟩ := whole
    have standing : Heads style before c ((inner ++ text) ++ h :: rest) token := head ▸ heads ..
    have ends : token.text.length ≤ (inner ++ text).length + 1 := by
      rw [shape, List.length_cons, List.length_append]
      omega
    exact .step (standing.append marker sameLine plain ends).eq
      (by rw [shape, List.cons_append, List.append_assoc]) ih

end Append

/-! ## Looking back -/

variable {d : Char}

private theorem insideCharLiteral_behind (plain : d ≠ '\\') (near far other after : List Char) :
    insideCharLiteral (near ++ d :: far) after = insideCharLiteral (near ++ d :: other) after := by
  have escape : ('\\' == d) = false := beq_eq_false_iff_ne.mpr plain.symm
  match near with
  | [] => simp only [insideCharLiteral, List.nil_append, List.isPrefixOf, escape, Bool.false_and]
  | [c] => rfl
  | c :: e :: near => rfl

/-- No token depends on what stands before a character that is no backslash. -/
theorem cut_behind (plain : d ≠ '\\') (near far other rest : List Char) :
    cut style (near ++ d :: far) rest = cut style (near ++ d :: other) rest := by
  match rest with
  | [] => rw [cut_nil, cut_nil]
  | c :: cs =>
    have same : first style (near ++ d :: far) c cs = first style (near ++ d :: other) c cs := by
      simp only [first, insideCharLiteral_behind plain near far other]
    rw [cut_cons, cut_cons, same, ← List.append_assoc, ← List.append_assoc, cut_behind plain _ far other]
termination_by rest.length
decreasing_by
  have := first_text_length_pos style (near ++ d :: other) c cs
  simp only [List.length_drop, List.length_cons]
  omega

end Token

/-- Cutting `text ++ rest` comes to the end of `text`. -/
def Boundary (style : CommentStyle) (text rest : List Char) : Prop :=
  ∃ found, found <+: tokens style (text ++ rest) ∧ found.flatMap Token.text = text

/-- A place that cutting comes to is one that the text in front of it can be scanned to. -/
theorem Boundary.scan {style : CommentStyle} {text rest : List Char} (boundary : Boundary style text rest) :
    ∃ found, Token.Scan style rest [] text found := by
  obtain ⟨found, begun, whole⟩ := boundary
  exact ⟨found, .of_begun begun whole⟩

end ReviewContext.Source
