import ReviewContext.Proofs.Source.Calls
import ReviewContext.Proofs.Source.Comments
import ReviewContext.Proofs.Source.Quotes

/-! # Literals are not read

What a literal of several lines says makes no difference to the names that a source exports, and in JavaScript to
the modules it imports: no statement in code looks into one, and none that starts in one is reported or hides
another.
-/

namespace ReviewContext.Source

open Token

variable {α : Type} {indent : Char → Bool} {read : Reader α} {d : Char}

/-! ## Around a literal -/

private theorem parted_of_stops (newline : d ≠ '\n') (solid : indent d = false) (stops : ∀ cs, StopsAt d read cs)
    {cs : List Char} {marks : List Bool} (same : marks.length = cs.length) : Parted indent read d cs marks := by
  induction cs generalizing marks with
  | nil =>
    obtain rfl := List.eq_nil_of_length_eq_zero same
    exact .quiet (quiet_nil newline solid (.inl (stops [])))
  | cons c cs ih =>
    cases marks with
    | nil => cases same
    | cons mark marks => exact .stops (stops (c :: cs)) (ih (Nat.succ.inj same))

private theorem quiet_unclosed (newline : d ≠ '\n') (solid : ∀ quote, isQuote quote → indent quote = false)
    (contained : ∀ cs, Contained d read cs) {lead inner : List Char} {quote : Char} {after : List Bool}
    (quotes : isQuote quote) (within : ∀ c ∈ inner, inQuotes c) (same : after.length = inner.length) :
    Quiet indent read d (lead ++ quote :: inner) (List.replicate (lead.length + 1) true ++ after) := by
  induction lead with
  | nil =>
    refine quiet_line newline ?_ (solid quote quotes) (fun member => ?_) same (contained _)
    · rintro rfl
      exact absurd quotes (by decide)
    · exact absurd (within _ member) (by decide)
  | cons c lead ih =>
    refine ih.cons ?_ (contained _)
    simp only [List.length_append, List.length_replicate, List.length_cons, same]
    omega

private theorem parted_of_guarded (newline : d ≠ '\n') (solid : indent d = false)
    (plain : ∀ quote, isQuote quote → indent quote = false) (guarded : Guarded d read)
    (contained : ∀ cs, Contained d read cs) {cs : List Char} {marks : List Bool}
    (same : marks.length = cs.length) (sealed : Sealed cs marks) : Parted indent read d cs marks := by
  induction cs generalizing marks with
  | nil =>
    obtain rfl := List.eq_nil_of_length_eq_zero same
    exact .quiet (quiet_nil newline solid (contained []))
  | cons c cs ih =>
    cases marks with
    | nil => cases same
    | cons mark marks =>
      rcases guarded (c :: cs) with stops | ⟨lead, quote, inner, whole, bare, quotes, within⟩
      · exact .stops stops (ih (Nat.succ.inj same) sealed.tail)
      · obtain ⟨others, after, split, length⟩ := sealed [] lead quote inner whole bare quotes within
        obtain rfl := List.eq_nil_of_length_eq_zero length
        rw [whole, split, List.nil_append] at same ⊢
        refine .quiet (quiet_unclosed newline plain contained quotes within ?_)
        simp only [List.length_append, List.length_replicate, List.length_cons] at same
        omega

private theorem covered_of_guarded (guarded : Guarded d read) {cs : List Char} {marks : List Bool}
    (same : marks.length = cs.length) (sealed : Sealed cs marks) : Covered read d cs marks := by
  induction cs generalizing marks with
  | nil =>
    obtain rfl := List.eq_nil_of_length_eq_zero same
    exact .nil
  | cons c cs ih =>
    cases marks with
    | nil => cases same
    | cons mark marks =>
      have tail := ih (Nat.succ.inj same) sealed.tail
      rcases guarded (c :: cs) with stops | ⟨lead, quote, inner, whole, bare, quotes, within⟩
      · exact .stops stops tail
      · obtain ⟨others, after, split, length⟩ := sealed [] lead quote inner whole bare quotes within
        obtain rfl := List.eq_nil_of_length_eq_zero length
        obtain ⟨rfl, -⟩ := List.cons.inj split
        exact .quoted tail

/-- A text with a literal in it. -/
def around (d : Char) (text body rest : List Char) : List Char :=
  text ++ d :: (body ++ d :: rest)

/-- The marks of a text with a literal in it. -/
def marksAround (marks : List Bool) (body : List Char) (quoted : List Bool) : List Bool :=
  marks ++ true :: (List.replicate body.length true ++ true :: quoted)

private theorem Parted.statements_eq {text : List Char} {marks : List Bool} (parted : Parted indent read d text marks)
    (newline : d ≠ '\n') (solid : indent d = false) (contained : ∀ cs, Contained d read cs)
    (body other rest : List Char) (quoted : List Bool) :
    statements (.line indent) read (around d text body rest) (marksAround marks body quoted) =
      statements (.line indent) read (around d text other rest) (marksAround marks other quoted) := by
  obtain ⟨names, same⟩ := parted.statementsFrom_eq true 0 (Nat.zero_le _) fun none => absurd rfl none
  have quiet := quiet_quoted newline solid contained
  unfold statements around marksAround
  rw [same, same, (quiet body).passed, (quiet other).passed]

private theorem Covered.statements_filter {keep : α → Bool} {text : List Char} {marks : List Bool}
    (covered : Covered read d text marks) (apart : Apart keep read) (body other rest : List Char)
    (quoted : List Bool) :
    (statements .word read (around d text body rest) (marksAround marks body quoted)).filter keep =
      (statements .word read (around d text other rest) (marksAround marks other quoted)).filter keep := by
  unfold statements around marksAround
  rw [apart.statementsFrom_filter, apart.statementsFrom_filter, covered.namings_eq, covered.namings_eq,
    namings_quoted, namings_quoted]

/-! ## The names of a source -/

private theorem trim_closing {gap : List Char} (blank : ∀ c ∈ gap, Text.isBlank c) (more : List Char) :
    ∃ tail, Text.trim (gap ++ ')' :: more) = ')' :: tail := by
  have start : Text.trimStart (gap ++ ')' :: more) = ')' :: more := by
    rw [Text.trimStart, List.dropWhile_append_of_pos blank, List.dropWhile_cons_of_neg (by decide)]
  have solid : Text.isBlank ')' = false := by decide
  rw [Text.trim, start, Text.trimEnd, List.reverse_cons, dropWhile_stop solid, List.reverse_append]
  exact ⟨_, rfl⟩

section Script

variable {language : Language} {text : List Char} {marks : List Bool}

/-- What is written in quotes and begins with a parenthesis names no place. -/
theorem not_isRelative_closing (script : language = .javascript ∨ language = .typescript) {gap : List Char}
    (blank : ∀ c ∈ gap, Text.isBlank c) (more : List Char) :
    language.isRelative (Text.trim (gap ++ ')' :: more)) = false := by
  obtain ⟨tail, trimmed⟩ := trim_closing blank more
  rw [trimmed]
  rcases script with rfl | rfl <;> rfl

private theorem lines_around {read : Reader (List Char)} (guarded : Guarded '\x60' read)
    (contained : ∀ cs, Contained '\x60' read cs) (same : marks.length = text.length) (sealed : Sealed text marks)
    (body other rest : List Char) (quoted : List Bool) :
    statements Imports.indented read (around '\x60' text body rest) (marksAround marks body quoted) =
      statements Imports.indented read (around '\x60' text other rest) (marksAround marks other quoted) := by
  refine Parted.statements_eq ?_ (by decide) (by decide) contained body other rest quoted
  refine parted_of_guarded (by decide) (by decide) (fun quote quotes => ?_) guarded contained same sealed
  simp only [isQuote, Bool.or_eq_true, beq_iff_eq] at quotes
  rcases quotes with rfl | rfl <;> decide

private theorem calls_around (script : language = .javascript ∨ language = .typescript) {word : String}
    (lower : word.toList.all Char.isLower) (nonempty : word.toList ≠ []) (same : marks.length = text.length)
    (sealed : Sealed text marks) (body other rest : List Char) (quoted : List Bool) :
    (statements .word (Imports.call? word) (around '\x60' text body rest)
        (marksAround marks body quoted)).filter (language.isRelative ∘ Text.trim) =
      (statements .word (Imports.call? word) (around '\x60' text other rest)
        (marksAround marks other quoted)).filter (language.isRelative ∘ Text.trim) := by
  have covered : Covered (Imports.call? word) '\x60' text marks :=
    covered_of_guarded (Imports.call?_guarded (bare_of_lower lower)) same sealed
  have apart : Apart (language.isRelative ∘ Text.trim) (Imports.call? word) :=
    Imports.call?_apart (List.all_eq_true.mp lower) nonempty fun gap more blank =>
      not_isRelative_closing script blank more
  exact covered.statements_filter apart body other rest quoted

theorem written_of_script (script : language = .javascript ∨ language = .typescript) (cs : List Char)
    (quoted : List Bool) : Imports.written language cs quoted =
      statements Imports.indented (Imports.namesFrom? "import") cs quoted ++
        statements Imports.indented Imports.bare? cs quoted ++
        statements Imports.indented (Imports.namesFrom? "export") cs quoted ++
        statements .word (Imports.call? "require") cs quoted ++
        statements .word (Imports.call? "import") cs quoted := by
  rcases script with rfl | rfl <;> rfl

private theorem imports_around (script : language = .javascript ∨ language = .typescript)
    (same : marks.length = text.length) (sealed : Sealed text marks) (body other rest : List Char)
    (quoted : List Bool) :
    ((Imports.written language (around '\x60' text body rest) (marksAround marks body quoted)).map
        Text.trim).filter language.isRelative =
      ((Imports.written language (around '\x60' text other rest) (marksAround marks other quoted)).map
        Text.trim).filter language.isRelative := by
  have clause (word : String) (lower : word.toList.all Char.isLower) := by
    have absent : '\x60' ∉ word.toList := fun member => (bare_of_lower lower _ member).2.2 rfl
    exact lines_around (Imports.namesFrom?_guarded (bare_of_lower lower)) (Imports.namesFrom?_contained absent) same
      sealed body other rest quoted
  have bare := lines_around Imports.bare?_guarded Imports.bare?_contained same sealed body other rest quoted
  have call (word : String) (lower : word.toList.all Char.isLower) (nonempty : word.toList ≠ []) :=
    calls_around script lower nonempty same sealed body other rest quoted
  rw [written_of_script script, written_of_script script]
  simp only [List.map_append, List.filter_append, List.filter_map]
  rw [clause "import" (by decide), bare, clause "export" (by decide), call "require" (by decide) (by decide),
    call "import" (by decide) (by decide)]

end Script

/-! ## The literal of a source -/

/-- A quote that opens literals of several lines. -/
structure LongQuote (style : CommentStyle) (d : Char) : Prop where
  prose : style.docstrings = false
  marker : style.lineMarker = ['/', '/']
  opens : d ∈ style.quotes
  long : d ∈ style.multiline
  slash : d ≠ '/'
  escape : d ≠ '\\'
  newline : d ≠ '\n'
  single : d ≠ '\''

/-- A quote of literals of several lines starts no comment, and is neither an escape nor a single quote. -/
theorem longQuote {language : Language} {style : CommentStyle} (known : language.commentStyle? = some style)
    (long : d ∈ style.multiline) : LongQuote style d := by
  cases language <;> cases known <;> simp only [List.mem_singleton, List.not_mem_nil] at long
  all_goals
    subst long
    exact ⟨rfl, rfl, by decide, by decide, by decide, by decide, by decide, by decide⟩

private theorem exports_around {language : Language} {style : CommentStyle}
    (known : language.commentStyle? = some style)
    (long : d ∈ style.multiline) {text : List Char} {marks : List Bool} (same : marks.length = text.length)
    (body other rest : List Char) (quoted : List Bool) :
    Exports.written language (around d text body rest) (marksAround marks body quoted) =
      Exports.written language (around d text other rest) (marksAround marks other quoted) := by
  have stopped {indent : Char → Bool} {read : Reader (List Char)} (newline : d ≠ '\n') (solid : indent d = false)
      (stops : ∀ cs, StopsAt d read cs) :
      statements (.line indent) read (around d text body rest) (marksAround marks body quoted) =
        statements (.line indent) read (around d text other rest) (marksAround marks other quoted) := by
    have parted := parted_of_stops newline solid stops same
    exact parted.statements_eq newline solid (fun cs => .inl (stops cs)) body other rest quoted
  cases language <;> cases known <;> simp only [List.mem_singleton, List.not_mem_nil] at long <;> subst long
  · exact stopped (by decide) (by decide) Exports.script?_stopsAt
  · exact stopped (by decide) (by decide) Exports.script?_stopsAt
  · exact stopped (by decide) rfl Exports.pub?_stopsAt
  · exact stopped (by decide) rfl (Exports.declaration?_stopsAt (by decide) (by decide) (by decide) (by decide))

private theorem literalLength_body {body : List Char} (open_ : d ∉ body) (plain : '\\' ∉ body) (escape : d ≠ '\\')
    (rest : List Char) : literalLength d true (body ++ d :: rest) = body.length + 1 := by
  induction body with
  | nil => rw [List.nil_append, literalLength_cons escape, if_neg (by simp), if_pos rfl]; rfl
  | cons c body ih =>
    obtain ⟨other, open_⟩ := not_or.mp (mt List.mem_cons.mpr open_)
    obtain ⟨solid, plain⟩ := not_or.mp (mt List.mem_cons.mpr plain)
    rw [List.cons_append, literalLength_cons (Ne.symm solid), if_neg (by simp), if_neg (Ne.symm other),
      ih open_ plain]
    rfl

/-- A quote behind no single quote opens a literal, which ends with the next. -/
theorem cut_literal {style : CommentStyle} (quote : LongQuote style d) {before body : List Char}
    (single : ['\''].isPrefixOf before = false) (escaped : ['\\', '\''].isPrefixOf before = false)
    (open_ : d ∉ body) (plain : '\\' ∉ body) (rest : List Char) :
    cut style before (d :: (body ++ d :: rest)) = .literal (d :: (body ++ [d])) :: cut style [d] rest := by
  have shape : d :: (body ++ d :: rest) = d :: (body ++ [d]) ++ rest := by simp
  have whole : (d :: (body ++ d :: rest)).take
      (literalLength d (style.multiline.contains d) (body ++ d :: rest) + 1) = d :: (body ++ [d]) := by
    rw [List.contains_iff_mem.mpr quote.long, literalLength_body open_ plain quote.escape, shape]
    exact List.take_left' (by simp)
  have literal : first style before d (body ++ d :: rest) = .literal (d :: (body ++ [d])) := by
    rw [← whole]
    refine Heads.eq (.literal ?_ ?_ ?_ ?_)
    · simp [quote.prose]
    · simp [quote.marker, quote.slash.symm]
    · simp [quote.slash.symm]
    · simp [insideCharLiteral, single, escaped, quote.opens]
  rw [cut_of_first literal shape, Token.text]
  have closed : (d :: (body ++ [d])).reverse ++ before = d :: (body.reverse ++ d :: before) := by simp
  rw [closed]
  exact congrArg _ (cut_behind quote.escape [] _ [] rest)

/-- There is a mark for each character that is left. -/
theorem quotation_length (found : List Token) : (quotation found).length = (found.flatMap kept).length := by
  rw [quotation, List.length_flatMap, List.length_flatMap]
  simp only [List.length_map]

theorem flatMap_kept_around (found later : List Token) (body : List Char) :
    (found ++ .literal (d :: (body ++ [d])) :: later).flatMap kept =
      around d (found.flatMap kept) body (later.flatMap kept) := by
  simp [around, Token.kept]

theorem quotation_around (found later : List Token) (body : List Char) :
    quotation (found ++ .literal (d :: (body ++ [d])) :: later) =
      marksAround (quotation found) body (quotation later) := by
  have literal : (d :: (body ++ [d])).map (fun _ => true) =
      true :: (List.replicate body.length true ++ [true]) := by
    rw [List.map_cons, List.map_append, List.map_const']
    rfl
  rw [quotation, List.flatMap_append, List.flatMap_cons, marksAround]
  change _ ++ ((d :: (body ++ [d])).map (fun _ => true) ++ _) = _
  rw [literal, List.cons_append, List.append_assoc]
  rfl

private theorem quoting_of_script {language : Language} {style : CommentStyle}
    (script : language = .javascript ∨ language = .typescript) (known : language.commentStyle? = some style)
    (long : d ∈ style.multiline) : Quoting style ∧ d = '\x60' := by
  rcases script with rfl | rfl <;> cases known <;> exact ⟨⟨rfl, rfl, rfl⟩, List.mem_singleton.mp long⟩

private theorem isPrefixOf_reverse {marks text : List Char} (other : ¬ marks <:+ text) :
    marks.reverse.isPrefixOf text.reverse = false := by
  rw [Bool.eq_false_iff, ne_eq, List.isPrefixOf_iff_prefix]
  exact fun starts => other (List.reverse_prefix.mp starts)

theorem Scan.cut_around {style : CommentStyle} {text rest body : List Char} {found : List Token}
    (scan : Scan style (d :: (body ++ d :: rest)) [] text found) (quote : LongQuote style d)
    (single : ¬ ['\''] <:+ text) (escaped : ¬ ['\'', '\\'] <:+ text) (open_ : d ∉ body) (plain : '\\' ∉ body) :
    tokens style (text ++ d :: (body ++ d :: rest)) =
      found ++ .literal (d :: (body ++ [d])) :: cut style [d] rest := by
  have notSingle : ['\''].isPrefixOf text.reverse = false := isPrefixOf_reverse single
  have notEscaped : ['\\', '\''].isPrefixOf text.reverse = false := isPrefixOf_reverse escaped
  rw [tokens, ← cut, Scan.cut_eq scan, List.append_nil, cut_literal quote notSingle notEscaped open_ plain]

/-- What a literal of several lines says makes no difference to the names that a source exports, and none to what
it imports in JavaScript, if no single quote in front of it makes a character of its quote. -/
theorem literals_unread (path : String) {style : CommentStyle} {d : Char}
    (known : (Language.ofPath path).commentStyle? = some style) (long : d ∈ style.multiline)
    (text rest body other : List Char) (boundary : Boundary style text (d :: (body ++ d :: rest)))
    (single : ¬ ['\''] <:+ text) (escaped : ¬ ['\'', '\\'] <:+ text) (open_ : d ∉ body) (plain : '\\' ∉ body)
    (open_other : d ∉ other) (plain_other : '\\' ∉ other) :
    (SourceRecord.parse path (String.ofList (text ++ d :: (body ++ d :: rest)))).exports =
        (SourceRecord.parse path (String.ofList (text ++ d :: (other ++ d :: rest)))).exports ∧
      (Language.ofPath path = .javascript ∨ Language.ofPath path = .typescript →
        (SourceRecord.parse path (String.ofList (text ++ d :: (body ++ d :: rest)))).imports =
          (SourceRecord.parse path (String.ofList (text ++ d :: (other ++ d :: rest)))).imports) := by
  have quote := longQuote known long
  have regular := Language.regular known
  obtain ⟨found, scan⟩ := boundary.scan
  have changed : Scan style (d :: (other ++ d :: rest)) [] text found :=
    scan.change regular.short quote.newline (fun documented => by simp [quote.prose] at documented) _
  have length := quotation_length found
  rw [parse_eq known, parse_eq known, Scan.cut_around scan quote single escaped open_ plain,
    Scan.cut_around changed quote single escaped open_other plain_other]
  unfold SourceRecord.ofTokens
  simp only [flatMap_kept_around, quotation_around]
  constructor
  · rw [exports_around known long length body other]
  · intro script
    obtain ⟨quoting, rfl⟩ := quoting_of_script script known long
    have sealed := Scan.sealed quoting (by decide) (by decide) scan
    rw [imports_around script length sealed body other]

/-- A source with a template in it. -/
def template (body : String) : List Char :=
  "import './a'\nlet t = ".toList ++ '\x60' :: (body.toList ++ '\x60' :: "\nexport class A".toList)

/-- Neither a declaration nor a call that is left open is read inside a template. -/
theorem literals_unread_of_template :
    ∃ style, (Language.ofPath "a.ts").commentStyle? = some style ∧ '\x60' ∈ style.multiline ∧
      Boundary style "import './a'\nlet t = ".toList
        ('\x60' :: ("\nexport class B".toList ++ '\x60' :: "\nexport class A".toList)) ∧
      SourceRecord.parse "a.ts" (String.ofList (template "\nexport class B")) = ⟨.typescript, ["./a"], ["A"]⟩ ∧
      (SourceRecord.parse "a.ts" (String.ofList (template "\nexport class B"))).exports =
        (SourceRecord.parse "a.ts" (String.ofList (template "require('./c"))).exports ∧
      (SourceRecord.parse "a.ts" (String.ofList (template "\nexport class B"))).imports =
        (SourceRecord.parse "a.ts" (String.ofList (template "require('./c"))).imports := by
  have typescript : Language.ofPath "a.ts" = .typescript := by decide +kernel
  have known : (Language.ofPath "a.ts").commentStyle? =
      some ⟨['/', '/'], .flat, ['"', '\'', '\x60'], ['\x60'], false⟩ := by
    rw [typescript]
    rfl
  have boundary : Boundary ⟨['/', '/'], .flat, ['"', '\'', '\x60'], ['\x60'], false⟩
      "import './a'\nlet t = ".toList
      ('\x60' :: ("\nexport class B".toList ++ '\x60' :: "\nexport class A".toList)) :=
    ⟨"import ".toList.map .code ++ .literal "'./a'".toList :: "\nlet t = ".toList.map .code, by decide +kernel,
      by decide⟩
  have read := literals_unread "a.ts" known (by decide) _ _ "\nexport class B".toList "require('./c".toList boundary
    (by decide) (by decide) (by decide) (by decide) (by decide) (by decide)
  exact ⟨_, known, by decide, boundary, by decide +kernel, read.1, read.2 (.inr typescript)⟩

end ReviewContext.Source
