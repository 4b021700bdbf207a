import Mathlib.Data.List.TakeWhile
import ReviewContext.Proofs.Source.Comments

/-! # Where tokens end

What a token is and how it ends, told together with the characters that are left behind it. A literal ends with its
quote, in front of a newline, or with the source; a line comment in front of a newline or with the source; a block
comment with its mark or with the source. The tokens of a source join to it, so all of it can be gone through token
by token.
-/

namespace ReviewContext

namespace Source

variable {style : CommentStyle} {before rest : List Char}

/-! ## Literals -/

/-- `body` is the rest of a literal behind its opening quote, and `rest` is left behind the literal. A backslash and
the character behind it end nothing. -/
inductive Ended (quote : Char) (multiline : Bool) : (body rest : List Char) → Prop
  | quoted (rest : List Char) : Ended quote multiline [quote] rest
  | lineEnd (short : multiline = false) (rest : List Char) : Ended quote multiline [] ('\n' :: rest)
  | sourceEnd : Ended quote multiline [] []
  | danglingEscape : Ended quote multiline ['\\'] []
  | escaped (c : Char) {body rest : List Char} (tail : Ended quote multiline body rest) :
      Ended quote multiline ('\\' :: c :: body) rest
  | plain {c : Char} {body rest : List Char} (solid : c ≠ '\\') (inside : c ≠ quote)
      (sameLine : c = '\n' → multiline = true) (tail : Ended quote multiline body rest) :
      Ended quote multiline (c :: body) rest

namespace Token

/-- The length of a literal is where the literal ends. -/
theorem literalLength_ended (quote : Char) (multiline : Bool) (cs : List Char) :
    Ended quote multiline (cs.take (literalLength quote multiline cs))
      (cs.drop (literalLength quote multiline cs)) := by
  induction cs using literalLength.induct quote multiline with
  | case1 => exact .sourceEnd
  | case2 => exact .danglingEscape
  | case3 c cs ih =>
    rw [literalLength]
    exact .escaped c ih
  | case4 c cs alone more newline =>
    rw [literalLength_cons (ne_escape alone more), if_pos newline, newline.1]
    exact .lineEnd (by simpa using newline.2) cs
  | case5 cs alone more sameLine =>
    rw [literalLength_cons (ne_escape alone more), if_neg sameLine, if_pos rfl]
    exact .quoted cs
  | case6 c cs alone more sameLine inside ih =>
    rw [literalLength_cons (ne_escape alone more), if_neg sameLine, if_neg inside]
    exact .plain (ne_escape alone more) inside (by simpa using sameLine) ih

end Token

open Token

/-- Where a literal ends tells its length. -/
theorem Ended.literalLength_eq {quote : Char} {multiline : Bool} {body : List Char}
    (ended : Ended quote multiline body rest) (escape : quote ≠ '\\') (newline : quote ≠ '\n') :
    literalLength quote multiline (body ++ rest) = body.length := by
  induction ended with
  | quoted rest =>
    rw [List.singleton_append, literalLength_cons escape, if_neg fun ends => newline ends.1, if_pos rfl]
    rfl
  | lineEnd short rest => rw [List.nil_append, literalLength_cons (by decide), if_pos (by simp [short])]; rfl
  | sourceEnd => rfl
  | danglingEscape => rfl
  | escaped c tail ih => rw [List.cons_append, List.cons_append, literalLength, ih, List.length_cons, List.length_cons]
  | @plain c body rest solid inside sameLine tail ih =>
    have within : ¬ (c = '\n' ∧ !multiline) := fun ends => by simp [sameLine ends.1] at ends
    rw [List.cons_append, literalLength_cons solid, if_neg within, if_neg inside, ih, List.length_cons]

/-- The end of a literal does not depend on what is behind it but for the newline that ends it. -/
theorem Ended.change {quote : Char} {multiline : Bool} {body other : List Char}
    (ended : Ended quote multiline body rest) (newline : rest.head? = some '\n' → other.head? = some '\n')
    (all : rest = [] → other = []) : Ended quote multiline body other := by
  induction ended with
  | quoted rest => exact .quoted other
  | lineEnd short rest =>
    obtain ⟨more, rfl⟩ := List.head?_eq_some_iff.mp (newline rfl)
    exact .lineEnd short more
  | sourceEnd => rw [all rfl]; exact .sourceEnd
  | danglingEscape => rw [all rfl]; exact .danglingEscape
  | escaped c tail ih => exact .escaped c (ih newline all)
  | plain solid inside sameLine tail ih => exact .plain solid inside sameLine (ih newline all)

/-! ## Comments -/

namespace Token

private theorem blockLength_ends (nested : Bool) (depth : Nat) (cs : List Char) :
    cs.drop (blockLength nested depth cs) = [] ∨
      ∃ inner, cs.take (blockLength nested depth cs) = inner ++ ['*', '/'] := by
  induction depth, cs using blockLength.induct nested with
  | case1 => exact .inl rfl
  | case2 => exact .inl rfl
  | case3 a b cs closes =>
    simp only [blockLength, closes, and_self, ↓reduceIte]
    exact .inr ⟨[], rfl⟩
  | case4 a b cs closes outer ih =>
    simp only [blockLength, closes, and_self, ↓reduceIte]
    apply ih.imp id
    rintro ⟨inner, closed⟩
    exact ⟨'*' :: '/' :: inner, by rw [List.take_succ_cons, List.take_succ_cons, closed]; rfl⟩
  | case5 depth a b cs open_ opens ih =>
    simp only [blockLength, if_neg open_, if_pos opens]
    apply ih.imp id
    rintro ⟨inner, closed⟩
    exact ⟨a :: b :: inner, by rw [List.take_succ_cons, List.take_succ_cons, closed]; rfl⟩
  | case6 depth a b cs open_ code ih =>
    simp only [blockLength, if_neg open_, if_neg code]
    apply ih.imp id
    rintro ⟨inner, closed⟩
    exact ⟨a :: inner, by rw [List.take_succ_cons, closed]; rfl⟩

theorem dropWhile_newline (cs : List Char) :
    cs.dropWhile (· != '\n') = [] ∨ (cs.dropWhile (· != '\n')).head? = some '\n' := by
  induction cs with
  | nil => exact .inl rfl
  | cons c cs ih =>
    by_cases newline : c = '\n'
    · subst newline
      exact .inr rfl
    · rw [List.dropWhile_cons_of_pos (by simpa using newline)]
      exact ih

/-! ## Tokens -/

/-- What a token is that has `before` in front of it and `rest` behind it. -/
inductive Standing (style : CommentStyle) (before : List Char) : (token : Token) → (rest : List Char) → Prop
  | docstring {text rest : List Char} (prose : style.docstrings = true) :
      Standing style before (.docstring text) rest
  | lineComment {text rest : List Char} (opens : text.head? = style.lineMarker.head?) (inLine : '\n' ∉ text)
      (ends : rest = [] ∨ rest.head? = some '\n') : Standing style before (.lineComment text) rest
  | blockComment {text rest : List Char} (opens : text.head? = some '/')
      (ends : rest = [] ∨ ∃ inner, text = inner ++ ['*', '/']) : Standing style before (.blockComment text) rest
  | literal {quote : Char} {body rest : List Char} (quotes : quote ∈ style.quotes)
      (opens : insideCharLiteral before (body ++ rest) = false)
      (ended : Ended quote (style.multiline.contains quote) body rest) :
      Standing style before (.literal (quote :: body)) rest
  | code {c : Char} {rest : List Char} (unmarked : ¬ style.lineMarker <+: c :: rest)
      (unblocked : style.blocks ≠ .absent → ¬ ['/', '*'] <+: c :: rest)
      (unquoted : c ∈ style.quotes → insideCharLiteral before rest = true) : Standing style before (.code c) rest

theorem eq_drop_of_take {α : Type} {n : Nat} {xs rest : List α} (whole : xs = xs.take n ++ rest) :
    rest = xs.drop n := by
  rw [← List.append_right_inj (xs.take n), ← whole, List.take_append_drop]

/-- A token at the head of a text is what it has to be by its text, by what is in front of it and by what is
behind it. -/
theorem standing (regular : style.Regular) {token : Token} {c : Char} {cs : List Char}
    (head : first style before c cs = token) (whole : c :: cs = token.text ++ rest) :
    Standing style before token rest := by
  have found := heads style before c cs
  rw [head] at found
  cases found with
  | docstring opens => exact .docstring ((Bool.and_eq_true ..).mp opens).1
  | lineComment prose opens =>
    obtain ⟨h, more, marker, newline, -⟩ := regular.marker
    obtain ⟨rfl, -⟩ : h = c ∧ more <+: cs := by simpa [marker] using opens
    have left : cs.takeWhile (· != '\n') ++ rest = cs.takeWhile (· != '\n') ++ cs.dropWhile (· != '\n') := by
      rw [List.takeWhile_append_dropWhile]
      exact (List.cons.inj whole).2.symm
    refine .lineComment (by rw [marker]; rfl) ?_ ?_
    · rintro (_ | ⟨_, member⟩)
      · exact newline rfl
      · simpa using List.mem_takeWhile_imp member
    · rw [List.append_cancel_left left]
      exact dropWhile_newline cs
  | blockComment prose unmarked opens =>
    obtain ⟨-, rfl, more, rfl⟩ : style.blocks ≠ .absent ∧ c = '/' ∧ ∃ more, cs = '*' :: more := by
      simpa [List.cons_prefix_iff] using opens
    rw [eq_drop_of_take whole]
    refine .blockComment rfl ?_
    apply (blockLength_ends (style.blocks = .nested) 0 more).imp id
    rintro ⟨inner, closed⟩
    refine ⟨'/' :: '*' :: inner, ?_⟩
    rw [List.drop_one, List.tail_cons, List.take_succ_cons, List.take_succ_cons, closed]
    rfl
  | literal prose unmarked unblocked opens =>
    obtain ⟨quotes, outside⟩ : c ∈ style.quotes ∧ insideCharLiteral before cs = false := by simpa using opens
    rw [eq_drop_of_take (List.cons.inj whole).2]
    refine .literal quotes ?_ (literalLength_ended c (style.multiline.contains c) cs)
    rwa [List.take_append_drop]
  | code prose unmarked unblocked unquoted =>
    obtain rfl : cs = rest := (List.cons.inj whole).2
    refine .code ?_ ?_ ?_
    · simpa using unmarked
    · simpa using unblocked
    · simpa using unquoted

theorem first_text_append (style : CommentStyle) (before : List Char) (c : Char) (cs : List Char) :
    (first style before c cs).text ++ (c :: cs).drop (first style before c cs).text.length = c :: cs := by
  have starts : (first style before c cs).text <+: c :: cs := by
    have found := heads style before c cs
    generalize first style before c cs = token at found ⊢
    cases found with
    | docstring => exact List.take_prefix ..
    | lineComment => exact List.cons_prefix_cons.mpr ⟨rfl, List.takeWhile_prefix _⟩
    | blockComment => exact List.take_prefix ..
    | literal => exact List.take_prefix ..
    | code => exact List.cons_prefix_cons.mpr ⟨rfl, List.nil_prefix⟩
  exact List.prefix_iff_eq_append.mp starts

/-- The texts of the tokens are the source. -/
theorem flatMap_text (style : CommentStyle) (before text : List Char) :
    (cut style before text).flatMap Token.text = text := by
  match text with
  | [] => rw [cut_nil]; rfl
  | c :: cs =>
    have later := flatMap_text style ((first style before c cs).text.reverse ++ before)
      ((c :: cs).drop (first style before c cs).text.length)
    rw [cut_cons, List.flatMap_cons, later, first_text_append]
termination_by text.length
decreasing_by
  have := first_text_length_pos style before c cs
  simp only [List.length_drop, List.length_cons]
  omega

/-- `found` are the tokens of `text`, all of which is cut, where `before` stands in front of it. -/
inductive Cutting (style : CommentStyle) : (before text : List Char) → (found : List Token) → Prop
  | done {before : List Char} : Cutting style before [] []
  | step {before text : List Char} {token : Token} {found : List Token}
      (standing : Standing style before token text) (present : token.text ≠ [])
      (tail : Cutting style (token.text.reverse ++ before) text found) :
      Cutting style before (token.text ++ text) (token :: found)

/-- Cutting a text gives its tokens, all the text being cut. -/
theorem cutting (regular : style.Regular) (before text : List Char) :
    Cutting style before text (cut style before text) := by
  match text with
  | [] => rw [cut_nil]; exact .done
  | c :: cs =>
    have whole := first_text_append style before c cs
    have tail := cutting regular ((first style before c cs).text.reverse ++ before)
      ((c :: cs).drop (first style before c cs).text.length)
    have present := List.ne_nil_of_length_pos (first_text_length_pos style before c cs)
    have step := Cutting.step (standing regular rfl whole.symm) present tail
    rwa [whole, ← cut_cons] at step
termination_by text.length
decreasing_by
  have := first_text_length_pos style before c cs
  simp only [List.length_drop, List.length_cons]
  omega

variable {text : List Char} {found front back : List Token}

private theorem Cutting.text_eq (cutting : Cutting style before text found) : found.flatMap Token.text = text := by
  induction cutting with
  | done => rfl
  | step standing present tail ih => rw [List.flatMap_cons, ih]

/-- What follows some of the tokens is cut where they end. -/
theorem Cutting.behind (cutting : Cutting style before text (front ++ back)) :
    Cutting style ((front.flatMap Token.text).reverse ++ before) (back.flatMap Token.text) back := by
  induction front generalizing before text with
  | nil =>
    rw [List.nil_append] at cutting
    have whole := cutting.text_eq
    rwa [whole]
  | cons token front ih =>
    cases cutting with
    | step standing present tail =>
      have later := ih tail
      rwa [List.flatMap_cons, List.reverse_append, List.append_assoc]

end Token

end Source

end ReviewContext
