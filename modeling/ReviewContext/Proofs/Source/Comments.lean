import ReviewContext.Proofs.Source.Scan
import ReviewContext.Source.Record

/-! # Comments are not read

What a comment says makes no difference: a source with another comment in its place gives the same text, the
same literals in it and the same record. Of a line comment nothing is left, and of a block comment a space and its
newlines.
-/

namespace ReviewContext

/-- What the style of every known language has in common. -/
structure CommentStyle.Regular (style : CommentStyle) : Prop where
  short : style.lineMarker.length ≤ 2
  marker : ∃ h more, style.lineMarker = h :: more ∧ h ≠ '\n' ∧ h ≠ '"' ∧ h ≠ '\''
  inLine : '\n' ∉ style.lineMarker
  unquoted : '\n' ∉ style.quotes
  blocks : style.blocks ≠ .absent → style.lineMarker = ['/', '/'] ∧ style.docstrings = false

/-- The style of every language is regular. -/
theorem Language.regular {language : Language} {style : CommentStyle}
    (known : language.commentStyle? = some style) : style.Regular := by
  cases language <;> cases known
  all_goals exact ⟨by decide, ⟨_, _, rfl, by decide⟩, by decide, by decide, by decide⟩

namespace Source

open Token

variable {style : CommentStyle} {before body rest : List Char}

/-! ## The body of a comment -/

/-- Block comments, one in another and one after the other, and characters that start and end none. -/
inductive Nested : List Char → Prop
  | nil : Nested []
  | char {c : Char} {cs : List Char} (star : c ≠ '*') (slash : c ≠ '/') (tail : Nested cs) : Nested (c :: cs)
  | comment {inner cs : List Char} (inside : Nested inner) (tail : Nested cs) :
      Nested ('/' :: '*' :: (inner ++ '*' :: '/' :: cs))

/-- What may stand between the marks of a block comment. -/
def BlockBody : BlockComments → List Char → Prop
  | .absent, _ => False
  | .flat, body => ¬ ['*', '/'] <:+: body
  | .nested, body => Nested body

namespace Token

/-- A character that is neither a star nor a slash starts and ends no block comment. -/
theorem blockLength_char {nested : Bool} {depth : Nat} {c : Char} (star : c ≠ '*') (slash : c ≠ '/')
    (rest : List Char) : blockLength nested depth (c :: rest) = blockLength nested depth rest + 1 := by
  cases rest with
  | nil => rfl
  | cons d rest => simp only [blockLength, star, slash, false_and, and_false, ↓reduceIte]

private theorem blockLength_nested {depth : Nat} (nested : Nested body) (rest : List Char) :
    blockLength true depth (body ++ rest) = body.length + blockLength true depth rest := by
  induction nested generalizing depth rest with
  | nil => exact (Nat.zero_add _).symm
  | char star slash tail ih =>
    rw [List.cons_append, blockLength_char star slash, ih, List.length_cons]
    omega
  | @comment inner cs inside tail inner_ih tail_ih =>
    have opened : blockLength true depth ('/' :: '*' :: (inner ++ '*' :: '/' :: (cs ++ rest))) =
        blockLength true (depth + 1) (inner ++ '*' :: '/' :: (cs ++ rest)) + 2 := rfl
    have closed : blockLength true (depth + 1) ('*' :: '/' :: (cs ++ rest)) =
        blockLength true depth (cs ++ rest) + 2 := rfl
    simp only [List.cons_append, List.append_assoc, List.length_cons, List.length_append]
    rw [opened, inner_ih, closed, tail_ih]
    omega

private theorem blockLength_flat (flat : ¬ ['*', '/'] <:+: body) (rest : List Char) :
    blockLength false 0 (body ++ '*' :: '/' :: rest) = body.length + 2 := by
  induction body with
  | nil => rfl
  | cons c cs ih =>
    have inner : ¬ ['*', '/'] <:+: cs := fun closes => flat (closes.trans (List.suffix_cons c cs).isInfix)
    have read := ih inner
    have open_ (d : Char) (more : List Char) (shape : cs ++ '*' :: '/' :: rest = d :: more) :
        ¬ (c = '*' ∧ d = '/') := by
      rintro ⟨rfl, rfl⟩
      cases cs with
      | nil => cases shape
      | cons d cs =>
        obtain ⟨rfl, _⟩ := List.cons.inj shape
        exact flat ⟨[], cs, rfl⟩
    cases shape : cs ++ '*' :: '/' :: rest with
    | nil => cases List.append_eq_nil_iff.mp shape |>.2
    | cons d more =>
      rw [List.cons_append, shape, blockLength, if_neg (open_ d more shape),
        if_neg fun opens => Bool.false_ne_true opens.1, ← shape, read, List.length_cons]

private theorem blockLength_body {blocks : BlockComments} (allowed : BlockBody blocks body) (rest : List Char) :
    blockLength (blocks = .nested) 0 (body ++ '*' :: '/' :: rest) = body.length + 2 := by
  cases blocks with
  | absent => exact allowed.elim
  | flat => exact blockLength_flat allowed rest
  | nested => exact (blockLength_nested allowed _).trans rfl

end Token

/-! ## What is left of a source -/

/-- What is left of a token. -/
def Token.left (token : Token) : List Char × Bool :=
  (token.kept, token.isLiteral)

private theorem spansFrom_congr {found other : List Token} (same : found.map Token.left = other.map Token.left)
    (offset : Nat) : Stripped.spansFrom offset found = Stripped.spansFrom offset other := by
  induction found generalizing other offset with
  | nil =>
    cases other with
    | nil => rfl
    | cons => cases same
  | cons token found ih =>
    cases other with
    | nil => cases same
    | cons token' other =>
      obtain ⟨head, tail⟩ := List.cons.inj same
      obtain ⟨kept, literal⟩ := Prod.mk.inj head
      simp only [Stripped.spansFrom, kept, literal, ih tail]

private theorem flatMap_kept (found : List Token) :
    found.flatMap Token.kept = (found.map Token.left).flatMap (·.1) := by
  rw [List.flatMap_map]
  rfl

private theorem quotation_eq (found : List Token) :
    quotation found = (found.map Token.left).flatMap fun left => left.1.map fun _ => left.2 := by
  rw [List.flatMap_map]
  rfl

/-- Two sources of which the same is left, as text, as literals and as a record. -/
structure ReadAlike (path : String) (style : CommentStyle) (source other : List Char) : Prop where
  record : SourceRecord.parse path (String.ofList source) = SourceRecord.parse path (String.ofList other)
  stripped : strip style source = strip style other

/-- A record is made of the tokens of its source. -/
theorem parse_eq {path : String} (known : (Language.ofPath path).commentStyle? = some style)
    (source : List Char) : SourceRecord.parse path (String.ofList source) =
      SourceRecord.ofTokens (Language.ofPath path) (tokens style source) := by
  unfold SourceRecord.parse
  generalize Language.ofPath path = language at known ⊢
  simp only [known, String.toList_ofList]

private theorem ofTokens_congr {language : Language} {found other : List Token}
    (same : found.map Token.left = other.map Token.left) :
    SourceRecord.ofTokens language found = SourceRecord.ofTokens language other := by
  unfold SourceRecord.ofTokens
  rw [flatMap_kept, flatMap_kept, quotation_eq, quotation_eq, same]

private theorem readAlike {path : String} {source other : List Char}
    (known : (Language.ofPath path).commentStyle? = some style)
    (same : (tokens style source).map Token.left = (tokens style other).map Token.left) :
    ReadAlike path style source other where
  record := by rw [parse_eq known, parse_eq known, ofTokens_congr same]
  stripped := by
    rw [strip, strip, Stripped.ofTokens, Stripped.ofTokens, flatMap_kept, flatMap_kept, same,
      spansFrom_congr same]

/-! ## Exchanging comments -/

/-- A newline is code, since it opens nothing. -/
theorem cut_newline (regular : style.Regular) (before rest : List Char) :
    cut style before ('\n' :: rest) = .code '\n' :: cut style ['\n'] rest := by
  obtain ⟨h, more, marker, newline, -⟩ := regular.marker
  have inert : Inert style '\n' := ⟨regular.unquoted, by simp [marker, newline], by decide⟩
  have whole : '\n' :: rest = (Token.code '\n').text ++ rest := rfl
  rw [cut_of_first (inert.first before rest) whole]
  exact congrArg _ (cut_behind (by decide) [] before [] rest)

/-- A comment that runs to the end of its line is one token. -/
theorem cut_lineComment (regular : style.Regular) (inLine : '\n' ∉ body) (before rest : List Char) :
    cut style before (style.lineMarker ++ body ++ '\n' :: rest) =
      .lineComment (style.lineMarker ++ body) :: .code '\n' :: cut style ['\n'] rest := by
  obtain ⟨h, more, marker, -, double, single⟩ := regular.marker
  have unbroken : ∀ c ∈ more ++ body, (c != '\n') = true := by
    intro c member
    rw [bne_iff_ne]
    rintro rfl
    rcases List.mem_append.mp member with inMarker | inBody
    · exact regular.inLine (marker ▸ List.mem_cons_of_mem h inMarker)
    · exact inLine inBody
  have whole : (more ++ body ++ '\n' :: rest).takeWhile (· != '\n') = more ++ body := by
    rw [List.takeWhile_append_of_pos unbroken, List.takeWhile_cons_of_neg (by decide), List.append_nil]
  have line : first style before h (more ++ body ++ '\n' :: rest) = .lineComment (style.lineMarker ++ body) := by
    have opens : style.lineMarker.isPrefixOf (h :: (more ++ body ++ '\n' :: rest)) := by
      rw [marker, List.isPrefixOf_iff_prefix, List.append_assoc, ← List.cons_append]
      exact List.prefix_append ..
    have prose : ¬ (style.docstrings && opensDocstring (h :: (more ++ body ++ '\n' :: rest))) := by
      simp [opensDocstring, double.symm, single.symm]
    rw [(Heads.lineComment prose opens).eq, whole, marker, List.cons_append]
  have shape : style.lineMarker ++ body ++ '\n' :: rest = h :: (more ++ body ++ '\n' :: rest) := by
    rw [marker, List.cons_append, List.cons_append]
  rw [shape, cut_of_first line shape.symm, cut_newline regular]

/-- A block comment is one token, with those that it holds where they may be nested. -/
theorem cut_blockComment (regular : style.Regular) (allowed : BlockBody style.blocks body)
    (before rest : List Char) : cut style before ('/' :: '*' :: (body ++ '*' :: '/' :: rest)) =
      .blockComment ('/' :: '*' :: (body ++ ['*', '/'])) :: cut style ['/'] rest := by
  have present : style.blocks ≠ .absent := fun absent => by
    rw [absent] at allowed
    exact allowed
  obtain ⟨marker, undocumented⟩ := regular.blocks present
  have shape : '/' :: '*' :: (body ++ '*' :: '/' :: rest) = '/' :: '*' :: (body ++ ['*', '/']) ++ rest := by simp
  have whole : ('/' :: '*' :: (body ++ '*' :: '/' :: rest)).take
      (blockLength (style.blocks = .nested) 0 (body ++ '*' :: '/' :: rest) + 2) =
        '/' :: '*' :: (body ++ ['*', '/']) := by
    rw [blockLength_body allowed, shape]
    exact List.take_left' (by simp)
  have block : first style before '/' ('*' :: (body ++ '*' :: '/' :: rest)) =
      .blockComment ('/' :: '*' :: (body ++ ['*', '/'])) := by
    rw [← whole]
    refine Heads.eq (.blockComment ?_ ?_ ?_)
    · simp [undocumented]
    · simp [marker]
    · simp [present]
  have closed : ('/' :: '*' :: (body ++ ['*', '/'])).reverse ++ before =
      '/' :: ('*' :: body.reverse ++ '*' :: '/' :: before) := by
    simp
  rw [cut_of_first block shape, Token.text, closed]
  exact congrArg _ (cut_behind (by decide) [] _ [] rest)

theorem newlines_append (cs ds : List Char) : newlines (cs ++ ds) = newlines cs ++ newlines ds :=
  List.filter_append ..

theorem newlines_eq_nil {cs : List Char} (inLine : '\n' ∉ cs) : newlines cs = [] :=
  List.filter_eq_nil_iff.mpr fun c member => by
    rw [beq_iff_eq]
    rintro rfl
    exact inLine member

theorem newlines_eq_replicate (cs : List Char) : newlines cs = List.replicate (cs.count '\n') '\n' :=
  List.filter_beq ..

/-- Nothing is left of a comment that runs to the end of its line. -/
theorem left_lineComment (regular : style.Regular) (inLine : '\n' ∉ body) :
    (Token.lineComment (style.lineMarker ++ body)).left = ([], false) := by
  rw [left, kept, newlines_append, newlines_eq_nil regular.inLine, newlines_eq_nil inLine]
  rfl

/-- Of a block comment a blank and its newlines are left, whatever else is in it. -/
theorem left_blockComment (body : List Char) : (Token.blockComment ('/' :: '*' :: (body ++ ['*', '/']))).left =
    (' ' :: List.replicate (body.count '\n') '\n', false) := by
  have mark : newlines ('/' :: '*' :: (body ++ ['*', '/'])) = newlines body := by
    rw [newlines, List.filter_cons_of_neg (by decide), List.filter_cons_of_neg (by decide), ← newlines,
      newlines_append]
    exact List.append_nil _
  rw [left, kept, mark, newlines_eq_replicate]
  rfl

/-- A source is read the same with another body in one of its comments, as long as a block comment keeps its
newlines. -/
theorem comments_unread (path : String) {style : CommentStyle}
    (known : (Language.ofPath path).commentStyle? = some style) (text rest : List Char) :
    (∀ body other, '\n' ∉ body → '\n' ∉ other →
      Boundary style text (style.lineMarker ++ body ++ '\n' :: rest) →
      ReadAlike path style (text ++ (style.lineMarker ++ body ++ '\n' :: rest))
        (text ++ (style.lineMarker ++ other ++ '\n' :: rest))) ∧
    (∀ body other, BlockBody style.blocks body → BlockBody style.blocks other →
      body.count '\n' = other.count '\n' →
      Boundary style text ('/' :: '*' :: (body ++ '*' :: '/' :: rest)) →
      ReadAlike path style (text ++ '/' :: '*' :: (body ++ '*' :: '/' :: rest))
        (text ++ '/' :: '*' :: (other ++ '*' :: '/' :: rest))) := by
  have regular := Language.regular known
  constructor
  · intro body other inLine otherInLine boundary
    obtain ⟨found, scan⟩ := boundary.scan
    obtain ⟨h, more, marker, newline, double, single⟩ := regular.marker
    have changed : Scan style (style.lineMarker ++ other ++ '\n' :: rest) [] text found := by
      rw [marker] at scan ⊢
      exact scan.change regular.short newline (fun _ => ⟨double, single⟩) _
    refine readAlike known ?_
    rw [tokens, tokens, ← cut, ← cut, scan.cut_eq, changed.cut_eq, cut_lineComment regular inLine,
      cut_lineComment regular otherInLine]
    simp only [List.map_append, List.map_cons, left_lineComment regular inLine,
      left_lineComment regular otherInLine]
  · intro body other allowed otherAllowed sameLines boundary
    obtain ⟨found, scan⟩ := boundary.scan
    have changed : Scan style ('/' :: '*' :: (other ++ '*' :: '/' :: rest)) [] text found :=
      scan.change regular.short (by decide) (fun _ => by decide) _
    refine readAlike known ?_
    rw [tokens, tokens, ← cut, ← cut, scan.cut_eq, changed.cut_eq, cut_blockComment regular allowed,
      cut_blockComment regular otherAllowed]
    simp only [List.map_append, List.map_cons, left_blockComment, sameLines]

/-- Quotes that are never closed, a backslash, a nested comment and a statement: none of it is read inside a
comment. -/
theorem comments_unread_of_rust_comments :
    ∃ style, (Language.ofPath "a.rs").commentStyle? = some style ∧
      Boundary style "mod a;".toList (style.lineMarker ++ " it's \"".toList ++ '\n' :: "mod b;".toList) ∧
      ReadAlike "a.rs" style ("mod a;".toList ++ (style.lineMarker ++ " it's \"".toList ++ '\n' :: "mod b;".toList))
        ("mod a;".toList ++ (style.lineMarker ++ "\\".toList ++ '\n' :: "mod b;".toList)) ∧
      Boundary style "mod a;".toList ('/' :: '*' :: ("/*\"\n*/".toList ++ '*' :: '/' :: "mod b;".toList)) ∧
      ReadAlike "a.rs" style ("mod a;".toList ++ '/' :: '*' :: ("/*\"\n*/".toList ++ '*' :: '/' :: "mod b;".toList))
        ("mod a;".toList ++ '/' :: '*' :: ("\nmod c;".toList ++ '*' :: '/' :: "mod b;".toList)) := by
  have rust : Language.ofPath "a.rs" = .rust := by decide +kernel
  have known : (Language.ofPath "a.rs").commentStyle? = some ⟨['/', '/'], .nested, ['"'], ['"'], false⟩ := by
    rw [rust]
    rfl
  have read := comments_unread "a.rs" known "mod a;".toList "mod b;".toList
  have beforeLine : Boundary ⟨['/', '/'], .nested, ['"'], ['"'], false⟩ "mod a;".toList
      (['/', '/'] ++ " it's \"".toList ++ '\n' :: "mod b;".toList) :=
    ⟨"mod a;".toList.map .code, by decide +kernel, by decide⟩
  have beforeBlock : Boundary ⟨['/', '/'], .nested, ['"'], ['"'], false⟩ "mod a;".toList
      ('/' :: '*' :: ("/*\"\n*/".toList ++ '*' :: '/' :: "mod b;".toList)) :=
    ⟨"mod a;".toList.map .code, by decide +kernel, by decide⟩
  have inner : Nested "/*\"\n*/".toList :=
    .comment (.char (by decide) (by decide) (.char (by decide) (by decide) .nil)) .nil
  have plain : Nested "\nmod c;".toList := by
    repeat' first | exact .nil | refine .char (by decide) (by decide) ?_
  exact ⟨_, known, beforeLine, read.1 _ _ (by decide) (by decide) beforeLine, beforeBlock,
    read.2 _ _ inner plain (by decide) beforeBlock⟩

end Source

end ReviewContext
