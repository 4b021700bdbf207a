import ReviewContext.Proofs.Source.StrippedAgain

/-! # The literals of a stripped text

The spans of a stripped text are those of its literals, each a piece of the source, and outside of them there is
neither the mark of a comment nor a quote that opens a literal. A character outside is a blank that a comment has
left or a token of code, and what was true of that token in the source is true of it in the text.
-/

namespace ReviewContext

private theorem Language.keepsLiterals_or {language : Language} {style : CommentStyle}
    (known : language.commentStyle? = some style) :
    style.KeepsLiterals ∨ style.lineMarker = ['#'] ∧ style.blocks = .absent := by
  cases prose : style.docstrings with
  | false => exact .inl (Language.keepsLiterals known prose)
  | true =>
    match language with
    | .python =>
      cases known
      exact .inr ⟨rfl, rfl⟩
    | .javascript | .typescript | .rust | .go | .swift | .kotlin | .java =>
      cases known
      cases prose
    | .unknown => cases known

private theorem Language.blank_opens_nothing {language : Language} {style : CommentStyle}
    (known : language.commentStyle? = some style) {c : Char} (blank : c = ' ' ∨ c = '\n') (rest : List Char) :
    c ∉ style.quotes ∧ ¬ style.lineMarker <+: c :: rest ∧ ¬ ['/', '*'] <+: c :: rest := by
  obtain rfl | rfl := blank
  all_goals
    cases language <;> cases known
    all_goals simp

namespace Source

private theorem byteLength_cons (c : Char) (cs : List Char) : byteLength (c :: cs) = c.utf8Size + byteLength cs := by
  have single : byteLength [c] = c.utf8Size := Nat.zero_add _
  rw [← single, ← byteLength_append]
  rfl

open Token

namespace Stripped

/-! ## Spans -/

private theorem contains_iff (span : Span) (pos : Nat) :
    span.contains pos = true ↔ span.start ≤ pos ∧ pos < span.stop := by
  simp [Span.contains]

private theorem inString_iff {stripped : Stripped} (ascending : stripped.strings.Pairwise fun a b => a.stop ≤ b.start)
    (pos : Nat) : stripped.inString pos = true ↔ ∃ span ∈ stripped.strings, span.contains pos = true := by
  obtain ⟨text, strings⟩ := stripped
  dsimp only [inString] at ascending ⊢
  induction strings with
  | nil => exact ⟨nofun, nofun⟩
  | cons a rest ih =>
    obtain ⟨after, ascending⟩ := List.pairwise_cons.mp ascending
    rw [List.exists_mem_cons_iff, contains_iff]
    by_cases ended : a.stop ≤ pos
    · have outside : ¬ (a.start ≤ pos ∧ pos < a.stop) := by omega
      rw [List.dropWhile_cons_of_pos (by simpa using ended), ih ascending, or_iff_right outside]
    · have later : ¬ ∃ span ∈ rest, span.contains pos = true := by
        rintro ⟨span, member, inside⟩
        have := after span member
        have := (contains_iff span pos).mp inside
        omega
      rw [List.dropWhile_cons_of_neg (by simpa using ended), or_iff_left later]
      dsimp only
      rw [decide_eq_true_iff]
      omega

private theorem mem_spansFrom {span : Span} {offset : Nat} {found : List Token}
    (member : span ∈ spansFrom offset found) :
    ∃ front cs back, found = front ++ .literal cs :: back ∧
      span.start = offset + byteLength (front.flatMap kept) ∧ span.stop = span.start + byteLength cs := by
  induction found generalizing offset with
  | nil => cases member
  | cons token found ih =>
    have later (member : span ∈ spansFrom (offset + byteLength token.kept) found) :
        ∃ front cs back, token :: found = front ++ .literal cs :: back ∧
          span.start = offset + byteLength (front.flatMap kept) ∧ span.stop = span.start + byteLength cs := by
      obtain ⟨front, cs, back, shape, start, stop⟩ := ih member
      refine ⟨token :: front, cs, back, congrArg _ shape, ?_, stop⟩
      rw [List.flatMap_cons, byteLength_append, start, Nat.add_assoc]
    cases token with
    | literal cs =>
      rcases List.mem_cons.mp member with rfl | member
      · exact ⟨[], cs, found, rfl, rfl, rfl⟩
      · exact later member
    | _ => exact later member

private theorem spansFrom_ascending (offset : Nat) (found : List Token) :
    (spansFrom offset found).Pairwise fun a b => a.stop ≤ b.start := by
  induction found generalizing offset with
  | nil => exact .nil
  | cons token found ih =>
    cases token with
    | literal cs =>
      refine .cons (fun span member => ?_) (ih _)
      obtain ⟨front, -, -, -, start, -⟩ := mem_spansFrom member
      rw [start]
      apply Nat.le_add_right
    | _ => exact ih _

private theorem mem_spansFrom_literal (offset : Nat) (front back : List Token) (cs : List Char) :
    ⟨offset + byteLength (front.flatMap kept), offset + byteLength (front.flatMap kept) + byteLength cs⟩ ∈
      spansFrom offset (front ++ .literal cs :: back) := by
  rw [spansFrom_append]
  exact List.mem_append_right _ List.mem_cons_self

/-! ## Places -/

/-- A place that no literal takes. -/
def Outside (stripped : Stripped) (pos : Nat) : Prop :=
  ∀ span ∈ stripped.strings, ¬ span.contains pos

variable {c : Char} {pre post : List Char} {found : List Token}

/-- Every character that is left is left of a token. -/
theorem exists_token (whole : found.flatMap kept = pre ++ c :: post) :
    ∃ front token back near far, found = front ++ token :: back ∧ token.kept = near ++ c :: far ∧
      pre = front.flatMap kept ++ near ∧ post = far ++ back.flatMap kept := by
  induction found generalizing pre with
  | nil => cases List.append_eq_nil_iff.mp whole.symm |>.2
  | cons token found ih =>
    have behind (rest : List Char) (here : pre = token.kept ++ rest)
        (whole : found.flatMap kept = rest ++ c :: post) :
        ∃ front other back near far, token :: found = front ++ other :: back ∧ other.kept = near ++ c :: far ∧
          pre = front.flatMap kept ++ near ∧ post = far ++ back.flatMap kept := by
      obtain ⟨front, other, back, near, far, shape, left, before, after⟩ := ih whole
      refine ⟨token :: front, other, back, near, far, congrArg _ shape, left, ?_, after⟩
      rw [here, before, List.flatMap_cons, List.append_assoc]
    rcases List.append_eq_append_iff.mp whole with ⟨rest, here, whole⟩ | ⟨rest, left, whole⟩
    · exact behind rest here whole
    · cases rest with
      | nil => exact behind [] (by simpa using left.symm) whole.symm
      | cons d rest =>
        obtain ⟨rfl, rfl⟩ := List.cons.inj whole
        exact ⟨[], token, found, pre, rest, rfl, left, rfl, rfl⟩

/-- A character outside of the literals is a blank or a token of code. -/
theorem exists_code (whole : found.flatMap kept = pre ++ c :: post)
    (outside : (ofTokens found).Outside (byteLength pre)) :
    (c = ' ' ∨ c = '\n') ∨
      ∃ front back, found = front ++ .code c :: back ∧ front.flatMap kept = pre ∧ back.flatMap kept = post := by
  obtain ⟨front, token, back, near, far, rfl, left, rfl, rfl⟩ := exists_token whole
  have newline (cs : List Char) (member : c ∈ newlines cs) : c = '\n' := by
    simpa using (List.mem_filter.mp member).2
  have member : c ∈ token.kept := left ▸ List.mem_append_right near List.mem_cons_self
  cases token with
  | code d =>
    cases near with
    | nil =>
      cases left
      exact .inr ⟨front, back, rfl, (List.append_nil _).symm, rfl⟩
    | cons e near => cases (List.append_eq_nil_iff.mp (List.cons.inj left).2.symm).2
  | literal cs =>
    refine absurd ?_ (outside _ (mem_spansFrom_literal 0 front back cs))
    have length : cs = near ++ c :: far := left
    have := c.utf8Size_pos
    rw [contains_iff, byteLength_append, length, byteLength_append, byteLength_cons]
    dsimp only
    omega
  | lineComment cs => exact .inl (.inr (newline cs member))
  | docstring cs => exact .inl (.inr (newline cs member))
  | blockComment cs => exact .inl ((List.mem_cons.mp member).imp id (newline cs))

end Stripped

open Stripped

variable {style : CommentStyle} {before text : List Char} {front back : List Token}

/-! ## What stands at a place -/

namespace Token

private theorem text_again (token : Token) : token.again.flatMap Token.text = token.kept := by
  have plain (cs : List Char) : (cs.map code).flatMap Token.text = cs := by
    rw [List.flatMap_map]
    exact List.flatMap_singleton' cs
  cases token with
  | literal cs => exact List.append_nil cs
  | _ => exact plain _

private theorem flatMap_text_again (found : List Token) :
    (found.flatMap again).flatMap Token.text = found.flatMap kept := by
  rw [List.flatMap_assoc]
  simp only [text_again]

private theorem standing_at (regular : style.Regular) {source : List Char} {token : Token}
    (shape : tokens style source = front ++ token :: back) :
    Standing style (front.flatMap Token.text).reverse token (back.flatMap Token.text) ∧
      Cutting style (token.text.reverse ++ (front.flatMap Token.text).reverse) (back.flatMap Token.text) back := by
  have cut := cutting regular [] source
  rw [show Token.cut style [] source = front ++ token :: back from shape] at cut
  have behind := cut.behind
  rw [List.append_nil, List.flatMap_cons] at behind
  generalize whole : token.text ++ back.flatMap Token.text = text at behind
  cases behind with
  | step standing present tail =>
    rw [List.append_cancel_left whole]
    exact ⟨standing, tail⟩

private theorem unopened {language : Language} (known : language.commentStyle? = some style) {source : List Char}
    {c : Char}
    (shape : tokens style source = front ++ .code c :: back) :
    ¬ style.lineMarker <+: c :: back.flatMap kept ∧
      (style.blocks ≠ .absent → ¬ ['/', '*'] <+: c :: back.flatMap kept) := by
  obtain ⟨standing, tail⟩ := standing_at (Language.regular known) shape
  cases standing with
  | code unmarked unblocked unquoted =>
    rcases Language.keepsLiterals_or known with keeps | ⟨marker, absent⟩
    · exact (tail.opening keeps).unopened keeps unmarked unblocked
    · rw [marker] at unmarked ⊢
      refine ⟨fun marked => unmarked ?_, fun present => absurd absent present⟩
      exact List.cons_prefix_cons.mpr ⟨(List.cons_prefix_cons.mp marked).1, List.nil_prefix⟩

private theorem exempt_of_code (regular : style.Regular) {source : List Char} {quote : Char}
    (shape : tokens style source = front ++ .code quote :: back) (quotes : quote ∈ style.quotes) :
    insideCharLiteral (front.flatMap Token.text).reverse (back.flatMap Token.text) = true := by
  cases (standing_at regular shape).1 with
  | code unmarked unblocked unquoted => exact unquoted quotes

end Token

private theorem exists_literal (regular : style.Regular) {source : List Char} {span : Span}
    (member : span ∈ (strip style source).strings) :
    ∃ pre quote body post, (strip style source).text = pre ++ (quote :: body ++ post) ∧
      span.start = byteLength pre ∧ span.stop = byteLength (pre ++ quote :: body) ∧ quote ∈ style.quotes ∧
        Ended quote (style.multiline.contains quote) body post ∧ quote :: body <:+: source := by
  have joined : (tokens style source).flatMap Token.text = source := flatMap_text style [] source
  obtain ⟨front, cs, back, shape, start, stop⟩ := mem_spansFrom member
  obtain ⟨standing, tail⟩ := standing_at regular shape
  rw [Nat.zero_add] at start
  cases standing with
  | @literal quote body _ quotes opens ended =>
    refine ⟨front.flatMap kept, quote, body, back.flatMap kept, ?_, start, ?_, quotes, tail.ended ended, ?_⟩
    · rw [strip, ofTokens, shape, List.flatMap_append, List.flatMap_cons]
      rfl
    · rw [stop, start, byteLength_append]
    · rw [shape, List.flatMap_append, List.flatMap_cons, ← List.append_assoc] at joined
      exact ⟨_, _, joined⟩

/-- In the stripped text the token is found again, so what exempts it in the source exempts it there. -/
theorem exempt_of_kept (keeps : style.KeepsLiterals) {source : List Char} {quote : Char}
    (shape : tokens style source = front ++ .code quote :: back) (quotes : quote ∈ style.quotes) :
    insideCharLiteral (front.flatMap kept).reverse (back.flatMap kept) = true := by
  have again : tokens style (strip style source).text =
      front.flatMap Token.again ++ .code quote :: back.flatMap Token.again := by
    rw [tokens_strip keeps source, shape, List.flatMap_append]
    rfl
  have inside := exempt_of_code keeps.regular again quotes
  rwa [flatMap_text_again, flatMap_text_again] at inside

/-- What a stripped text and its spans have to be to a source. A place is told by the text in front of it. -/
structure Exact (style : CommentStyle) (source : List Char) (stripped : Stripped) : Prop where
  ascending : stripped.strings.Pairwise fun a b => a.stop ≤ b.start
  within : ∀ span ∈ stripped.strings, span.start < span.stop ∧ span.stop ≤ byteLength stripped.text
  /-- A span takes whole characters, which are a literal of the source and end where a literal ends. -/
  literal : ∀ span ∈ stripped.strings, ∃ pre quote body post, stripped.text = pre ++ (quote :: body ++ post) ∧
    span.start = byteLength pre ∧ span.stop = byteLength (pre ++ quote :: body) ∧ quote ∈ style.quotes ∧
      Ended quote (style.multiline.contains quote) body post ∧ quote :: body <:+: source
  unopened : ∀ pre post, stripped.text = pre ++ post → stripped.Outside (byteLength pre) →
    ¬ style.lineMarker <+: post ∧ (style.blocks ≠ .absent → ¬ ['/', '*'] <+: post)
  /-- A quote outside is code of the source, where it stands in a character literal. It does so in the text too,
  unless there is documentation to leave nothing in front of it. -/
  exempt : ∀ pre quote post, stripped.text = pre ++ quote :: post → quote ∈ style.quotes →
    stripped.Outside (byteLength pre) →
      (∃ front back, tokens style source = front ++ .code quote :: back ∧ front.flatMap kept = pre ∧
        back.flatMap kept = post ∧
          insideCharLiteral (front.flatMap Token.text).reverse (back.flatMap Token.text) = true) ∧
      (style.docstrings = false → insideCharLiteral pre.reverse post = true)
  inString_iff : ∀ pos, stripped.inString pos = true ↔ ∃ span ∈ stripped.strings, span.contains pos = true

/-- In every language the spans are the literals that are left of a source, and outside of them no comment is left and
no quote that could open a literal. -/
theorem strip_exact {language : Language} {style : CommentStyle} (known : language.commentStyle? = some style)
    (source : List Char) : Exact style source (strip style source) := by
  have regular := Language.regular known
  constructor
  case ascending => exact spansFrom_ascending 0 _
  case within =>
    intro span member
    obtain ⟨pre, quote, body, post, whole, start, stop, -⟩ := exists_literal regular member
    have := quote.utf8Size_pos
    rw [byteLength_append, byteLength_cons] at stop
    rw [whole, byteLength_append, byteLength_append, byteLength_cons]
    omega
  case literal => exact fun span => exists_literal regular
  case unopened =>
    intro pre post whole outside
    cases post with
    | nil =>
      obtain ⟨h, more, marker, -⟩ := regular.marker
      simp [marker]
    | cons c post =>
      rcases exists_code whole outside with blank | ⟨front, back, shape, -, rfl⟩
      · have nothing := Language.blank_opens_nothing known blank post
        exact ⟨nothing.2.1, fun _ => nothing.2.2⟩
      · exact unopened known shape
  case exempt =>
    intro pre quote post whole quotes outside
    rcases exists_code whole outside with blank | ⟨front, back, shape, rfl, rfl⟩
    · exact absurd quotes (Language.blank_opens_nothing known blank post).1
    · constructor
      · exact ⟨front, back, shape, rfl, rfl, exempt_of_code regular shape quotes⟩
      · exact fun prose => exempt_of_kept (Language.keepsLiterals known prose) shape quotes
  case inString_iff => exact Stripped.inString_iff (spansFrom_ascending 0 _)

/-- A quote as a character, one in a comment, and marks of comments and an escaped quote in a literal. -/
theorem strip_exact_of_rust_quotes : ∃ style : CommentStyle, Language.rust.commentStyle? = some style ∧
    Exact style "'\"' /* \" */ \"b // c\\\"\" // d".toList
      (strip style "'\"' /* \" */ \"b // c\\\"\" // d".toList) := by
  have known : Language.rust.commentStyle? = some ⟨['/', '/'], .nested, ['"'], ['"'], false⟩ := rfl
  exact ⟨_, known, strip_exact known _⟩

/-- The quote of a character literal is left alone where the documentation in front of it is gone. -/
example : strip ⟨['#'], .absent, ['"', '\''], [], true⟩ "'''a'''\"'x".toList = ⟨"\"'x".toList, [⟨1, 3⟩]⟩ := by
  decide +kernel

end Source

end ReviewContext
