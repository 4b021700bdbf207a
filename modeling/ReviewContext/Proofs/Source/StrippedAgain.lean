import ReviewContext.Proofs.Source.Ends

/-! # Stripping a second time

Where no documentation is taken out, a source without its comments is cut as the source was: each literal and each
character of code is found again, and of a comment only blanks, which are code. So a second stripping changes
nothing, and the record is the same. Three things could go wrong where a comment has gone. What was apart could
start a comment, but the characters around are a blank or were together before. A literal could end elsewhere, but
it ends by itself or in front of a newline, which stays. And a quote could come to stand in a character literal, or
no longer, but that takes a single quote right in front of it, or a backslash and a single quote.
-/

namespace ReviewContext

/-- A style that keeps every literal. -/
structure CommentStyle.KeepsLiterals (style : CommentStyle) : Prop where
  regular : style.Regular
  marker : style.lineMarker = ['/', '/']
  prose : style.docstrings = false
  quotes : ∀ quote ∈ style.quotes, quote = '"' ∨ quote = '\'' ∨ quote = '\x60'

/-- A language without documentation in quotes keeps all its literals. -/
theorem Language.keepsLiterals {language : Language} {style : CommentStyle}
    (known : language.commentStyle? = some style) (prose : style.docstrings = false) : style.KeepsLiterals := by
  have regular := Language.regular known
  cases language <;> cases known
  case python => cases prose
  all_goals exact ⟨regular, rfl, rfl, by simp⟩

namespace Source

namespace Token

variable {style : CommentStyle} {before seen text rest : List Char} {found : List Token}

/-- What is found of a token once the source is stripped. -/
def again : Token → List Token
  | literal cs => [.literal cs]
  | token => token.kept.map .code

private theorem kept_map_code (cs : List Char) : (cs.map code).flatMap kept = cs := by
  rw [List.flatMap_map]
  exact List.flatMap_singleton' cs

private theorem kept_again (token : Token) : token.again.flatMap kept = token.kept := by
  cases token with
  | literal cs => exact List.append_nil cs
  | _ => exact kept_map_code _

/-! ## Looking back over a comment -/

/-- In front of any further text, `before` and `seen` make the same quotes the bodies of character literals. -/
def Alike (before seen : List Char) : Prop :=
  ∀ near after, insideCharLiteral (near ++ before) after = insideCharLiteral (near ++ seen) after

private theorem Alike.refl (before : List Char) : Alike before before := fun _ _ => rfl

private theorem Alike.append (alike : Alike before seen) (near : List Char) :
    Alike (near ++ before) (near ++ seen) := by
  intro nearer after
  rw [← List.append_assoc, ← List.append_assoc]
  exact alike (nearer ++ near) after

/-- A character that is neither a single quote nor a backslash is as good as any other. -/
theorem alike_of_plain {c d : Char} (quote : c ≠ '\'') (escape : c ≠ '\\') (quote' : d ≠ '\'')
    (escape' : d ≠ '\\') (far other : List Char) : Alike (c :: far) (d :: other) := by
  intro near after
  have single : ('\'' == c) = false ∧ ('\'' == d) = false := by simp [quote.symm, quote'.symm]
  have backslash : ('\\' == c) = false ∧ ('\\' == d) = false := by simp [escape.symm, escape'.symm]
  match near with
  | [] => simp only [insideCharLiteral, List.nil_append, List.isPrefixOf, single, backslash, Bool.false_and]
  | [e] => simp only [insideCharLiteral, List.cons_append, List.nil_append, List.isPrefixOf, single, Bool.false_and]
  | e :: f :: near => rfl

private theorem blank_blockComment (comment : List Char) : ∀ c ∈ (blockComment comment).kept, c = ' ' ∨ c = '\n' := by
  rintro c (_ | ⟨_, member⟩)
  · exact .inl rfl
  · exact .inr (by simpa using (List.mem_filter.mp member).2)

/-- The mark at the end of a comment is as good as the blank at the end of what is left of it. -/
theorem alike_blockComment (inner before seen : List Char) :
    Alike ((inner ++ ['*', '/']).reverse ++ before)
      ((blockComment (inner ++ ['*', '/'])).kept.reverse ++ seen) := by
  obtain ⟨last, front, reversed⟩ := List.exists_cons_of_ne_nil (List.reverse_ne_nil_iff.mpr
    (List.cons_ne_nil ' ' (newlines (inner ++ ['*', '/']))))
  have blank : last = ' ' ∨ last = '\n' := by
    apply blank_blockComment (inner ++ ['*', '/']) last
    rw [← List.mem_reverse, kept, reversed]
    exact List.mem_cons_self
  have plain : last ≠ '\'' ∧ last ≠ '\\' := by rcases blank with rfl | rfl <;> decide
  rw [kept, reversed, List.reverse_append]
  exact alike_of_plain (by decide) (by decide) plain.1 plain.2 _ _

/-! ## What stands at the head of a stripped text -/

/-- The texts start alike, or where the one starts with a comment the other has a blank or nothing. -/
def Opening (text left : List Char) : Prop :=
  left.head? = text.head? ∨ text.head? = some '/' ∧ (left = [] ∨ left.head? = some ' ' ∨ left.head? = some '\n')

private theorem Opening.head?_eq {left : List Char} (opening : Opening text left) {c : Char} (blank : c ≠ ' ')
    (newline : c ≠ '\n') (head : left.head? = some c) : text.head? = some c := by
  rcases opening with same | ⟨-, rfl | space | line⟩
  · rw [← same, head]
  · cases head
  · exact absurd (Option.some.inj (head.symm.trans space)) blank
  · exact absurd (Option.some.inj (head.symm.trans line)) newline

private theorem Opening.head?_of_text {left : List Char} (opening : Opening text left) {c : Char} (slash : c ≠ '/')
    (head : text.head? = some c) : left.head? = some c := by
  rcases opening with same | ⟨comment, -⟩
  · rw [same, head]
  · exact absurd (Option.some.inj (head.symm.trans comment)) slash

private theorem Opening.head?_iff {left : List Char} (opening : Opening text left) {c : Char} (slash : c ≠ '/')
    (blank : c ≠ ' ') (newline : c ≠ '\n') : left.head? = some c ↔ text.head? = some c :=
  ⟨opening.head?_eq blank newline, opening.head?_of_text slash⟩

/-- A mark of two characters, the second of them solid, is in front of the one text if it is in front of the
other. -/
theorem Opening.mark {left : List Char} (opening : Opening text left) {a b c : Char} (blank : b ≠ ' ')
    (newline : b ≠ '\n') (marked : [a, b] <+: c :: left) : [a, b] <+: c :: text := by
  obtain ⟨rfl, more, shape⟩ := List.cons_prefix_cons.mp marked
  obtain ⟨rest, rfl⟩ := List.head?_eq_some_iff.mp (opening.head?_eq blank newline (shape ▸ rfl))
  exact ⟨rest, rfl⟩

/-- Where no comment starts in a source, none starts in what is left of it. -/
theorem Opening.unopened {left : List Char} {c : Char} (opening : Opening text left) (keeps : style.KeepsLiterals)
    (unmarked : ¬ style.lineMarker <+: c :: text) (unblocked : style.blocks ≠ .absent → ¬ ['/', '*'] <+: c :: text) :
    ¬ style.lineMarker <+: c :: left ∧ (style.blocks ≠ .absent → ¬ ['/', '*'] <+: c :: left) := by
  constructor
  · rw [keeps.marker] at unmarked ⊢
    exact fun marked => unmarked (opening.mark (by decide) (by decide) marked)
  · exact fun present blocked => unblocked present (opening.mark (by decide) (by decide) blocked)

private theorem insideCharLiteral_congr {left : List Char} (same : text.head? = some '\'' ↔ left.head? = some '\'') :
    insideCharLiteral before text = insideCharLiteral before left := by
  have starts (cs : List Char) : ['\''].isPrefixOf cs ↔ cs.head? = some '\'' := by
    cases cs with
    | nil => simp
    | cons c cs => simpa using eq_comm
  have after : ['\''].isPrefixOf text = ['\''].isPrefixOf left := by
    rw [Bool.eq_iff_iff, starts, starts, same]
  rw [insideCharLiteral, insideCharLiteral, after]

/-- A quote stands in a character literal of the one text if it does in the other. -/
theorem Opening.insideCharLiteral_eq {left : List Char} (opening : Opening text left) (alike : Alike before seen)
    (body : List Char) : insideCharLiteral seen (body ++ left) = insideCharLiteral before (body ++ text) := by
  have head : (body ++ left).head? = some '\'' ↔ (body ++ text).head? = some '\'' := by
    cases body with
    | nil => exact opening.head?_iff (by decide) (by decide) (by decide)
    | cons => exact Iff.rfl
  calc insideCharLiteral seen (body ++ left)
    _ = insideCharLiteral seen (body ++ text) := insideCharLiteral_congr head
    _ = insideCharLiteral before (body ++ text) := (alike [] _).symm

private theorem Cutting.eq_nil (cutting : Cutting style before [] found) : found = [] := by
  generalize same : [] = text at cutting
  cases cutting with
  | done => rfl
  | step standing present tail => exact absurd (List.append_eq_nil_iff.mp same.symm).1 present

/-- A newline in front of a text is left in front of it. -/
theorem Cutting.newline_first (cutting : Cutting style before text found) (newline : text.head? = some '\n') :
    (found.flatMap kept).head? = some '\n' := by
  cases cutting with
  | done => cases newline
  | @step _ text token found standing present tail =>
    rw [List.head?_append_of_ne_nil _ present] at newline
    obtain ⟨more, shape⟩ := List.head?_eq_some_iff.mp newline
    cases standing with
    | blockComment opens ends => exact absurd (Option.some.inj (newline.symm.trans opens)) (by decide)
    | docstring | lineComment | literal | code =>
      cases shape
      rfl

/-- A literal ends where it did. -/
theorem Cutting.ended (cutting : Cutting style before text found) {quote : Char} {multiline : Bool}
    {body : List Char} (ended : Ended quote multiline body text) :
    Ended quote multiline body (found.flatMap kept) := by
  apply ended.change cutting.newline_first
  rintro rfl
  rw [cutting.eq_nil]
  rfl

/-- What is left of a text starts as the text does, comments apart. -/
theorem Cutting.opening (cutting : Cutting style before text found) (keeps : style.KeepsLiterals) :
    Opening text (found.flatMap kept) := by
  cases cutting with
  | done => exact .inl rfl
  | @step _ text token found standing present tail =>
    have head : (token.text ++ text).head? = token.text.head? := List.head?_append_of_ne_nil _ present
    cases standing with
    | docstring documented => simp [keeps.prose] at documented
    | lineComment opens inLine ends =>
      refine .inr ⟨?_, ?_⟩
      · rw [head, Token.text, opens, keeps.marker]
        rfl
      · rw [List.flatMap_cons, kept, newlines_eq_nil inLine, List.nil_append]
        rcases ends with rfl | newline
        · exact .inl (by rw [tail.eq_nil]; rfl)
        · exact .inr (.inr (tail.newline_first newline))
    | blockComment opens ends => exact .inr ⟨head.trans opens, .inr (.inl rfl)⟩
    | literal quotes opens ended => exact .inl rfl
    | code unmarked unblocked unquoted => exact .inl rfl

/-! ## Cutting a stripped text -/

private theorem first_code (keeps : style.KeepsLiterals) {c : Char} (unmarked : ¬ style.lineMarker <+: c :: rest)
    (unblocked : style.blocks ≠ .absent → ¬ ['/', '*'] <+: c :: rest)
    (unquoted : c ∈ style.quotes → insideCharLiteral before rest = true) : first style before c rest = .code c := by
  refine Heads.eq (.code ?_ ?_ ?_ ?_)
  · simp [keeps.prose]
  · simpa using unmarked
  · simpa using unblocked
  · simpa using unquoted

/-- A quote that opens a literal makes it the token at the head. -/
theorem first_literal (keeps : style.KeepsLiterals) {quote : Char} {body : List Char} (quotes : quote ∈ style.quotes)
    (opens : insideCharLiteral before (body ++ rest) = false)
    (ended : Ended quote (style.multiline.contains quote) body rest) :
    first style before quote (body ++ rest) = .literal (quote :: body) := by
  have solid : quote ≠ '\\' ∧ quote ≠ '\n' ∧ quote ≠ '/' := by
    rcases keeps.quotes quote quotes with rfl | rfl | rfl <;> decide
  have length := ended.literalLength_eq solid.1 solid.2.1
  have whole : (quote :: (body ++ rest)).take
      (literalLength quote (style.multiline.contains quote) (body ++ rest) + 1) = quote :: body := by
    rw [length, List.take_succ_cons, List.take_left]
  rw [← whole]
  refine Heads.eq (.literal ?_ ?_ ?_ ?_)
  · simp [keeps.prose]
  · simp [keeps.marker, solid.2.2.symm]
  · simp [solid.2.2.symm]
  · simp [quotes, opens]

private theorem cut_blanks (keeps : style.KeepsLiterals) {blanks : List Char} (blank : ∀ c ∈ blanks, c = ' ' ∨ c = '\n')
    (before rest : List Char) :
    cut style before (blanks ++ rest) = blanks.map .code ++ cut style (blanks.reverse ++ before) rest := by
  apply cut_inert
  intro c member
  have unquoted : c ∉ style.quotes := by
    intro quotes
    rcases blank c member with rfl | rfl <;> simpa using keeps.quotes _ quotes
  have marker : style.lineMarker.head? = some '/' := by rw [keeps.marker, List.head?_cons]
  rcases blank c member with rfl | rfl
  · exact ⟨unquoted, by simp [marker], by decide⟩
  · exact ⟨unquoted, by simp [marker], by decide⟩

private theorem Cutting.cut_kept (cutting : Cutting style before text found) (keeps : style.KeepsLiterals)
    (alike : Alike before seen) : cut style seen (found.flatMap kept) = found.flatMap again := by
  induction cutting generalizing seen with
  | done => exact cut_nil
  | @step before text token found standing present tail ih =>
    have opening := tail.opening keeps
    rw [List.flatMap_cons, List.flatMap_cons]
    cases standing with
    | docstring documented => simp [keeps.prose] at documented
    | @lineComment comment _ opens inLine ends =>
      -- Behind it is a newline or nothing, so it does not matter what is in front.
      have gone : (Token.lineComment comment).kept = [] := newlines_eq_nil inLine
      have nothing : (Token.lineComment comment).again = [] := congrArg (List.map code) gone
      rw [gone, nothing, List.nil_append, List.nil_append, ← ih (.refl _)]
      rcases ends with rfl | newline
      · rw [tail.eq_nil]
        exact cut_nil.trans cut_nil.symm
      · obtain ⟨more, shape⟩ := List.head?_eq_some_iff.mp (tail.newline_first newline)
        rw [shape, cut_newline keeps.regular, cut_newline keeps.regular]
    | @blockComment comment _ opens ends =>
      rw [cut_blanks keeps (blank_blockComment comment)]
      apply congrArg ((Token.blockComment comment).again ++ ·)
      rcases ends with rfl | ⟨inner, rfl⟩
      · rw [tail.eq_nil]
        exact cut_nil
      · exact ih (alike_blockComment inner before seen)
    | @literal quote body _ quotes opens ended =>
      have outside := (opening.insideCharLiteral_eq alike body).trans opens
      have whole : quote :: (body ++ found.flatMap kept) = (Token.literal (quote :: body)).text ++ found.flatMap kept :=
        rfl
      calc cut style seen ((Token.literal (quote :: body)).kept ++ found.flatMap kept)
        _ = _ := cut_of_first (first_literal keeps quotes outside (tail.ended ended)) whole
        _ = _ := congrArg _ (ih (alike.append _))
    | @code c _ unmarked unblocked unquoted =>
      have inside (quotes : c ∈ style.quotes) := (opening.insideCharLiteral_eq alike []).trans (unquoted quotes)
      have unopened := opening.unopened keeps unmarked unblocked
      calc cut style seen ((Token.code c).kept ++ found.flatMap kept)
        _ = _ := cut_of_first (first_code keeps unopened.1 unopened.2 inside) rfl
        _ = _ := congrArg _ (ih (alike.append [c]))

/-- The tokens of a stripped text are what is left of the tokens of its source. -/
theorem tokens_strip (keeps : style.KeepsLiterals) (source : List Char) :
    tokens style (strip style source).text = (tokens style source).flatMap again :=
  (cutting keeps.regular [] source).cut_kept keeps (.refl [])

/-! ## What is left of a stripped text -/

private theorem flatMap_again (found : List Token) : (found.flatMap again).flatMap kept = found.flatMap kept := by
  rw [List.flatMap_assoc]
  simp only [kept_again]

private theorem quotation_again (found : List Token) : quotation (found.flatMap again) = quotation found := by
  have each (token : Token) : quotation token.again = token.kept.map fun _ => token.isLiteral := by
    have plain (cs : List Char) : quotation (cs.map code) = cs.map fun _ => false := by
      rw [quotation, List.flatMap_map]
      exact List.flatMap_pure_eq_map ..
    cases token with
    | literal cs => exact List.append_nil _
    | _ => exact plain _
  induction found with
  | nil => rfl
  | cons token found ih =>
    have step : quotation (token.again ++ found.flatMap again) =
        quotation token.again ++ quotation (found.flatMap again) := List.flatMap_append
    rw [List.flatMap_cons, step, each, ih]
    rfl

end Token

open Token

theorem byteLength_append (cs ds : List Char) : byteLength (cs ++ ds) = byteLength cs + byteLength ds := by
  have shift (ds : List Char) (n : Nat) : ds.foldl (fun n c => n + c.utf8Size) n = n + byteLength ds := by
    unfold byteLength
    induction ds generalizing n with
    | nil => rfl
    | cons d ds ih => rw [List.foldl_cons, List.foldl_cons, ih, ih (0 + d.utf8Size)]; omega
  rw [byteLength, List.foldl_append, shift]
  rfl

namespace Stripped

/-- The spans of what follows are counted on from where the text in front of it ends. -/
theorem spansFrom_append (offset : Nat) (found more : List Token) : spansFrom offset (found ++ more) =
    spansFrom offset found ++ spansFrom (offset + byteLength (found.flatMap kept)) more := by
  induction found generalizing offset with
  | nil => rfl
  | cons token found ih =>
    rw [List.cons_append, spansFrom, spansFrom, ih, List.flatMap_cons, byteLength_append, Nat.add_assoc]
    split <;> rfl

private theorem spansFrom_code (offset : Nat) (cs : List Char) : spansFrom offset (cs.map .code) = [] := by
  induction cs generalizing offset with
  | nil => rfl
  | cons c cs ih => exact ih _

private theorem spansFrom_again (offset : Nat) (found : List Token) :
    spansFrom offset (found.flatMap again) = spansFrom offset found := by
  induction found generalizing offset with
  | nil => rfl
  | cons token found ih =>
    rw [List.flatMap_cons, spansFrom_append, kept_again, ih]
    cases token with
    | literal cs => rfl
    | _ => exact congrArg (· ++ _) (spansFrom_code offset _)

end Stripped

/-- Where no documentation is taken out, a stripped text is stripped already, and its record is the record of the
source. -/
theorem strip_strip {language : Language} {style : CommentStyle} (known : language.commentStyle? = some style)
    (prose : style.docstrings = false) (source : List Char) :
    strip style (strip style source).text = strip style source ∧
      ∀ path, Language.ofPath path = language →
        SourceRecord.parse path (String.ofList (strip style source).text) =
          SourceRecord.parse path (String.ofList source) := by
  have found := tokens_strip (Language.keepsLiterals known prose) source
  constructor
  · rw [strip, found, Stripped.ofTokens, flatMap_again, Stripped.spansFrom_again]
    rfl
  · rintro path rfl
    rw [parse_eq known, parse_eq known, found]
    simp only [SourceRecord.ofTokens, flatMap_again, quotation_again]

/-- Quotes in a comment and around one, and what would be a mark but for the comment in it. -/
theorem strip_strip_of_quotes_and_marks : ∃ style : CommentStyle,
    Language.typescript.commentStyle? = some style ∧ style.docstrings = false ∧ Language.ofPath "a.ts" = .typescript ∧
      strip style (strip style "a /* ' */ '// b' //\n/ /**// \"'\"".toList).text =
        strip style "a /* ' */ '// b' //\n/ /**// \"'\"".toList ∧
      SourceRecord.parse "a.ts" (String.ofList (strip style "a /* ' */ '// b' //\n/ /**// \"'\"".toList).text) =
        SourceRecord.parse "a.ts" (String.ofList "a /* ' */ '// b' //\n/ /**// \"'\"".toList) := by
  have script : Language.ofPath "a.ts" = .typescript := by decide +kernel
  have known : Language.typescript.commentStyle? = some ⟨['/', '/'], .flat, ['"', '\'', '\x60'], ['\x60'], false⟩ := rfl
  obtain ⟨again, record⟩ := strip_strip known rfl "a /* ' */ '// b' //\n/ /**// \"'\"".toList
  exact ⟨_, known, rfl, script, again, record "a.ts" script⟩

end Source

end ReviewContext
