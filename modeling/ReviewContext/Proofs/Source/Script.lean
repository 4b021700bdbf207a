import ReviewContext.Proofs.Source.Comments
import ReviewContext.Proofs.Source.Quotes

/-! # Scripts

A script is a row of lines, and each is a statement that names a module, a constant with a text, or a comment. Such
a text is cut line by line: a statement into its characters and one literal, a comment into one token.
-/

namespace ReviewContext.Source

/-! ## What a line says -/

namespace Script

/-- An identifier of ASCII. -/
structure Name where
  text : List Char
  nonempty : text ≠ []
  ascii : ∀ c ∈ text, c.isAlphanum ∨ c = '_' ∨ c = '$'

inductive QuoteMark where
  | single
  | double

def QuoteMark.char : QuoteMark → Char
  | single => '\''
  | double => '"'

/-- A text that may stand in either kind of quotes, without blanks at its ends. -/
structure Module where
  text : List Char
  plain : ∀ c ∈ text, inQuotes c ∧ c ≠ '\\'
  first : text.head?.all (!Text.isBlank ·)
  last : text.getLast?.all (!Text.isBlank ·)

/-- Something imported or exported, perhaps with another name. -/
structure Item where
  name : Name
  renamed : Option Name

def Item.text (item : Item) : List Char :=
  item.name.text ++ (item.renamed.elim [] fun other => " as ".toList ++ other.text)

/-- `{A, B as C}` -/
def braced (items : List Item) : List Char :=
  '{' :: (", ".toList.intercalate (items.map Item.text) ++ ['}'])

/-- What stands between the keyword and `from`. -/
inductive Clause where
  | whole (name : Name)
  | parts (items : List Item)
  | all (name : Name)
  | types (items : List Item)

def Clause.text : Clause → List Char
  | whole name => name.text
  | parts items => braced items
  | all name => "* as ".toList ++ name.text
  | types items => "type ".toList ++ braced items

/-- The statements that name a module. -/
inductive Form where
  | imported (clause : Clause)
  | effect
  | exported (items : List Item)
  | exportedAll
  | required (name : Name)
  | loaded (name : Name)

/-- `const v = ` -/
def assigned (name : Name) : List Char :=
  "const ".toList ++ name.text ++ " = ".toList

namespace Form

/-- What stands in front of the module. -/
def lead : Form → List Char
  | imported clause => "import ".toList ++ clause.text ++ " from ".toList
  | effect => "import ".toList
  | exported items => "export ".toList ++ braced items ++ " from ".toList
  | exportedAll => "export * from ".toList
  | required name => assigned name ++ "require(".toList
  | loaded name => assigned name ++ "import(".toList

def tail : Form → List Char
  | required _ | loaded _ => [')', ';']
  | _ => [';']

end Form

/-- A line of a script. -/
inductive Line where
  | statement (form : Form) (mark : QuoteMark) (module : Module)
  | constant (name : Name) (text : List Char) (plain : ∀ c ∈ text, c ≠ '"' ∧ c ≠ '\\' ∧ c ≠ '\n')
  | lineComment (text : List Char) (inLine : '\n' ∉ text)
  | blockComment (text : List Char) (flat : ¬ ['*', '/'] <:+: text)

def Line.text : Line → List Char
  | statement form mark module => form.lead ++ mark.char :: (module.text ++ mark.char :: form.tail)
  | constant name text _ => assigned name ++ '"' :: (text ++ ['"', ';'])
  | lineComment text _ => '/' :: '/' :: text
  | blockComment text _ => '/' :: '*' :: (text ++ ['*', '/'])

/-- The text of a script. A newline ends each line but the last, and perhaps that one too. -/
def source (ended : Bool) : List Line → List Char
  | [] => []
  | line :: lines => line.text ++ if lines.isEmpty && !ended then [] else '\n' :: source ended lines

/-! ## The characters of a line -/

theorem forall_of_all {p : Char → Prop} [DecidablePred p] {cs : List Char} (all : cs.all (decide <| p ·)) :
    ∀ c ∈ cs, p c :=
  fun c member => of_decide_eq_true (List.all_eq_true.mp all c member)

theorem forall_between {p : Char → Prop} [DecidablePred p] {front cs back : List Char}
    (front_all : front.all (decide <| p ·)) (inner : ∀ c ∈ cs, p c) (back_all : back.all (decide <| p ·)) :
    ∀ c ∈ front ++ cs ++ back, p c :=
  List.forall_mem_append.mpr ⟨List.forall_mem_append.mpr ⟨forall_of_all front_all, inner⟩, forall_of_all back_all⟩

private theorem forall_ascii {p : Char → Prop} (all : ∀ n < 128, p (Char.ofNat n)) {c : Char} (ascii : c.toNat < 128) :
    p c := by
  rw [← Char.ofNat_toNat c]
  exact all c.toNat ascii

private theorem toNat_lt_of_name {c : Char} (named : c.isAlphanum ∨ c = '_' ∨ c = '$') : c.toNat < 128 := by
  rcases named with alphanum | rfl | rfl
  · rcases (Bool.or_eq_true ..).mp alphanum with alpha | digit
    · rcases (Bool.or_eq_true ..).mp alpha with upper | lower
      · have high : c.toNat ≤ 90 := UInt32.le_iff_toNat_le.mp (of_decide_eq_true upper).2
        omega
      · have high : c.toNat ≤ 122 := UInt32.le_iff_toNat_le.mp (of_decide_eq_true ((Bool.and_eq_true ..).mp lower).2)
        omega
    · have high : c.toNat ≤ 57 := UInt32.le_iff_toNat_le.mp (of_decide_eq_true ((Bool.and_eq_true ..).mp digit).2)
      omega
  · decide
  · decide

/-- A property of all characters of identifiers, which are ASCII, holds of a name. -/
theorem Name.forall {p : Char → Prop}
    (all : ∀ n < 128, ((Char.ofNat n).isAlphanum ∨ Char.ofNat n = '_' ∨ Char.ofNat n = '$') → p (Char.ofNat n))
    (name : Name) : ∀ c ∈ name.text, p c := by
  intro c member
  have named := name.ascii c member
  exact forall_ascii (p := fun c => c.isAlphanum ∨ c = '_' ∨ c = '$' → p c) all (toNat_lt_of_name named) named

section Forall

variable {p : Char → Prop}

/-- The characters of a clause that belong to no name. -/
def clauseMarks : List Char :=
  " {},*astype".toList

private theorem Item.forall (names : ∀ name : Name, ∀ c ∈ name.text, p c) (marks : ∀ c ∈ clauseMarks, p c)
    (item : Item) :
    ∀ c ∈ item.text, p c := by
  obtain ⟨name, renamed⟩ := item
  refine List.forall_mem_append.mpr ⟨names name, ?_⟩
  cases renamed with
  | none => exact fun _ member => nomatch member
  | some other =>
    have among : ∀ c ∈ " as ".toList, c ∈ clauseMarks := forall_of_all (by decide)
    exact List.forall_mem_append.mpr ⟨fun c member => marks c (among c member), names other⟩

theorem braced_forall (names : ∀ name : Name, ∀ c ∈ name.text, p c) (marks : ∀ c ∈ clauseMarks, p c)
    (items : List Item) : ∀ c ∈ braced items, p c := by
  have listed : ∀ c ∈ ", ".toList.intercalate (items.map Item.text), p c := by
    induction items with
    | nil => exact fun _ member => nomatch member
    | cons item items ih =>
      cases items with
      | nil => simpa using item.forall names marks
      | cons other items =>
        have among : ∀ c ∈ ", ".toList, c ∈ clauseMarks := forall_of_all (by decide)
        have separated : ∀ c ∈ ", ".toList, p c := fun c member => marks c (among c member)
        rw [List.map_cons, List.map_cons, List.intercalate_cons_cons]
        exact List.forall_mem_append.mpr
          ⟨List.forall_mem_append.mpr ⟨item.forall names marks, separated⟩, ih⟩
  have closed : ∀ c ∈ ['}'], p c := List.forall_mem_singleton.mpr (marks '}' (by decide))
  exact List.forall_mem_cons.mpr ⟨marks '{' (by decide), List.forall_mem_append.mpr ⟨listed, closed⟩⟩

/-- What holds of names and of the marks of a clause holds of a clause. -/
theorem Clause.forall (names : ∀ name : Name, ∀ c ∈ name.text, p c) (marks : ∀ c ∈ clauseMarks, p c)
    (clause : Clause) : ∀ c ∈ clause.text, p c := by
  cases clause with
  | whole name => exact names name
  | parts items => exact braced_forall names marks items
  | all name =>
    have among : ∀ c ∈ "* as ".toList, c ∈ clauseMarks := forall_of_all (by decide)
    exact List.forall_mem_append.mpr ⟨fun c member => marks c (among c member), names name⟩
  | types items =>
    have among : ∀ c ∈ "type ".toList, c ∈ clauseMarks := forall_of_all (by decide)
    exact List.forall_mem_append.mpr ⟨fun c member => marks c (among c member), braced_forall names marks items⟩

end Forall

/-- What starts neither a literal nor a comment, and ends no line. -/
def Spelled (c : Char) : Prop :=
  Bare c ∧ c ≠ '/' ∧ c ≠ '\\' ∧ c ≠ '\n'

instance (c : Char) : Decidable (Spelled c) :=
  inferInstanceAs (Decidable (_ ∧ _))

private theorem Name.spelled : ∀ name : Name, ∀ c ∈ name.text, Spelled c :=
  Name.forall (by decide +kernel)

theorem spelled_assigned (name : Name) : ∀ c ∈ assigned name, Spelled c :=
  forall_between (by decide) name.spelled (by decide)

/-- What stands in front of the module starts neither a literal nor a comment. -/
theorem Form.spelled_lead (form : Form) : ∀ c ∈ form.lead, Spelled c := by
  cases form with
  | imported clause =>
    have inner := clause.forall Name.spelled (forall_of_all (by decide))
    exact forall_between (by decide) inner (by decide)
  | effect => exact forall_of_all (by decide)
  | exported items =>
    have inner := braced_forall Name.spelled (forall_of_all (by decide)) items
    exact forall_between (by decide) inner (by decide)
  | exportedAll => exact forall_of_all (by decide)
  | required name | loaded name => exact List.forall_mem_append.mpr ⟨spelled_assigned name, forall_of_all (by decide)⟩

theorem Form.tail_cases (form : Form) : form.tail = [';'] ∨ form.tail = [')', ';'] := by
  cases form with
  | imported | effect | exported | exportedAll => exact .inl rfl
  | required | loaded => exact .inr rfl

/-- What stands behind the module starts neither a literal nor a comment. -/
theorem Form.spelled_tail (form : Form) : ∀ c ∈ form.tail, Spelled c := by
  rcases form.tail_cases with same | same
  · rw [same]
    exact forall_of_all (by decide)
  · rw [same]
    exact forall_of_all (by decide)

/-! ## Tokens -/

/-- The comments and literals of JavaScript and TypeScript. -/
def style : CommentStyle :=
  ⟨['/', '/'], .flat, ['"', '\'', '\x60'], ['\x60'], false⟩

theorem style_known {language : Language} (script : language = .javascript ∨ language = .typescript) :
    language.commentStyle? = some style := by
  rcases script with rfl | rfl <;> rfl

theorem style_regular : style.Regular :=
  Language.regular (style_known (.inl rfl))

open Token

private theorem cut_spelled {lead : List Char} (spelled : ∀ c ∈ lead, Spelled c) (before rest : List Char) :
    cut style before (lead ++ rest) = lead.map .code ++ cut style (lead.reverse ++ before) rest := by
  apply cut_inert
  intro c member
  obtain ⟨⟨double, single, back⟩, slash, -⟩ := spelled c member
  exact ⟨by simp [style, double, single, back], by simp [style, slash.symm], slash, double, single⟩

private theorem literalLength_line {quote : Char} {body : List Char}
    (plain : ∀ c ∈ body, c ≠ quote ∧ c ≠ '\\' ∧ c ≠ '\n') (escape : quote ≠ '\\') (newline : quote ≠ '\n')
    (rest : List Char) : literalLength quote false (body ++ quote :: rest) = body.length + 1 := by
  induction body with
  | nil => rw [List.nil_append, literalLength_cons escape, if_neg fun ends => newline ends.1, if_pos rfl]; rfl
  | cons c body ih =>
    obtain ⟨⟨other, solid, inLine⟩, later⟩ := List.forall_mem_cons.mp plain
    rw [List.cons_append, literalLength_cons solid, if_neg fun ends => inLine ends.1, if_neg other, ih later]
    rfl

theorem eq_of_isQuote {quote : Char} (quotes : isQuote quote) : quote = '"' ∨ quote = '\'' := by
  simpa [isQuote] using quotes

/-- A quote behind characters that are no quotes opens a literal, which ends with the next. -/
theorem cut_shortLiteral {quote : Char} (quotes : isQuote quote) {lead body : List Char} (some : lead ≠ [])
    (spelled : ∀ c ∈ lead, Spelled c) (plain : ∀ c ∈ body, c ≠ quote ∧ c ≠ '\\' ∧ c ≠ '\n')
    (before rest : List Char) : cut style (lead.reverse ++ before) (quote :: (body ++ quote :: rest)) =
      .literal (quote :: (body ++ [quote])) :: cut style [quote] rest := by
  have mark := eq_of_isQuote quotes
  have escape : quote ≠ '\\' := by rcases mark with rfl | rfl <;> decide
  have newline : quote ≠ '\n' := by rcases mark with rfl | rfl <;> decide
  have slash : quote ≠ '/' := by rcases mark with rfl | rfl <;> decide
  have short : style.multiline.contains quote = false := by rcases mark with rfl | rfl <;> decide
  have known : style.quotes.contains quote = true := by rcases mark with rfl | rfl <;> decide
  have outside : insideCharLiteral (lead.reverse ++ before) (body ++ quote :: rest) = false := by
    obtain ⟨c, more, reversed⟩ := List.exists_cons_of_ne_nil (mt List.reverse_eq_nil_iff.mp some)
    obtain ⟨⟨-, single, -⟩, -, solid, -⟩ := spelled c (List.mem_reverse.mp (reversed ▸ List.mem_cons_self))
    simp [insideCharLiteral, reversed, single.symm, solid.symm]
  have shape : quote :: (body ++ quote :: rest) = quote :: (body ++ [quote]) ++ rest := by simp
  have whole : (quote :: (body ++ quote :: rest)).take
      (literalLength quote (style.multiline.contains quote) (body ++ quote :: rest) + 1) =
        quote :: (body ++ [quote]) := by
    rw [short, literalLength_line plain escape newline, shape]
    exact List.take_left' (by simp)
  have literal : first style (lead.reverse ++ before) quote (body ++ quote :: rest) =
      .literal (quote :: (body ++ [quote])) := by
    rw [← whole]
    refine Heads.eq (.literal ?_ ?_ ?_ ?_)
    · simp [style]
    · simp [style, slash.symm]
    · simp [slash.symm]
    · rw [outside, known]
      rfl
  have closed : (quote :: (body ++ [quote])).reverse ++ (lead.reverse ++ before) =
      quote :: (body.reverse ++ quote :: (lead.reverse ++ before)) := by
    simp
  rw [cut_of_first literal shape, Token.text, closed]
  exact congrArg _ (cut_behind escape [] _ [] rest)

/-- The tokens of a line with one literal in it. -/
def quotedTokens (lead : List Char) (quote : Char) (body tail : List Char) : List Token :=
  lead.map .code ++ .literal (quote :: (body ++ [quote])) :: tail.map .code

private theorem cut_quoted {quote : Char} (quotes : isQuote quote) {lead body tail : List Char} (some : lead ≠ [])
    (spelled : ∀ c ∈ lead, Spelled c) (plain : ∀ c ∈ body, c ≠ quote ∧ c ≠ '\\' ∧ c ≠ '\n')
    (spelled_tail : ∀ c ∈ tail, Spelled c) (before rest : List Char) :
    cut style before (lead ++ quote :: (body ++ quote :: (tail ++ rest))) =
      quotedTokens lead quote body tail ++ cut style (tail.reverse ++ [quote]) rest := by
  rw [cut_spelled spelled, cut_shortLiteral quotes some spelled plain, cut_spelled spelled_tail, quotedTokens,
    List.append_assoc, List.cons_append]

def Line.tokens : Line → List Token
  | statement form mark module => quotedTokens form.lead mark.char module.text form.tail
  | constant name text _ => quotedTokens (assigned name) '"' text [';']
  | lineComment text _ => [.lineComment ('/' :: '/' :: text)]
  | blockComment text _ => [.blockComment ('/' :: '*' :: (text ++ ['*', '/']))]

theorem QuoteMark.isQuote_char (mark : QuoteMark) : isQuote mark.char := by
  cases mark <;> rfl

/-- A statement starts with one of three keywords. -/
theorem Form.exists_lead (form : Form) : ∃ c cs, form.lead = c :: cs ∧ (c = 'i' ∨ c = 'e' ∨ c = 'c') := by
  cases form with
  | imported | effect => exact ⟨_, _, rfl, .inl rfl⟩
  | exported | exportedAll => exact ⟨_, _, rfl, .inr (.inl rfl)⟩
  | required | loaded => exact ⟨_, _, rfl, .inr (.inr rfl)⟩

private theorem Form.lead_ne_nil (form : Form) : form.lead ≠ [] := by
  obtain ⟨c, cs, lead, -⟩ := form.exists_lead
  rw [lead]
  exact List.cons_ne_nil c cs

private theorem Module.plain_of_quote (module : Module) {quote : Char} (quotes : isQuote quote) :
    ∀ c ∈ module.text, c ≠ quote ∧ c ≠ '\\' ∧ c ≠ '\n' := by
  intro c member
  obtain ⟨inside, solid⟩ := module.plain c member
  refine ⟨?_, solid, ?_⟩
  · rintro rfl
    exact isQuote_not_inQuotes quotes inside
  · rintro rfl
    exact absurd inside (by decide)

/-- A line is cut into its tokens, where a newline or the end of the text follows. -/
theorem cut_line (line : Line) (before rest : List Char) (follows : rest = [] ∨ ∃ more, rest = '\n' :: more) :
    ∃ behind, cut style before (line.text ++ rest) = line.tokens ++ cut style behind rest := by
  cases line with
  | statement form mark module =>
    have shape : (form.lead ++ mark.char :: (module.text ++ mark.char :: form.tail)) ++ rest =
        form.lead ++ mark.char :: (module.text ++ mark.char :: (form.tail ++ rest)) := by
      simp only [List.append_assoc, List.cons_append]
    have quoted := cut_quoted mark.isQuote_char form.lead_ne_nil form.spelled_lead
      (module.plain_of_quote mark.isQuote_char) form.spelled_tail before rest
    rw [← shape] at quoted
    exact ⟨_, quoted⟩
  | constant name text plain =>
    have shape : (assigned name ++ '"' :: (text ++ ['"', ';'])) ++ rest =
        assigned name ++ '"' :: (text ++ '"' :: ([';'] ++ rest)) := by
      simp only [List.append_assoc, List.cons_append]
    have some : assigned name ≠ [] := List.cons_ne_nil 'c' _
    have quotes : isQuote '"' := rfl
    have ended : ∀ c ∈ [';'], Spelled c := forall_of_all (by decide)
    have quoted := cut_quoted quotes some (spelled_assigned name) plain ended before rest
    rw [← shape] at quoted
    exact ⟨_, quoted⟩
  | lineComment text inLine =>
    have unbroken : ∀ c ∈ '/' :: text, (c != '\n') = true := by
      intro c member
      rw [bne_iff_ne]
      rintro rfl
      exact inLine (List.mem_of_ne_of_mem (by decide) member)
    have ends : rest.takeWhile (· != '\n') = [] := by
      rcases follows with rfl | ⟨more, rfl⟩ <;> rfl
    have line : first style before '/' ('/' :: text ++ rest) = .lineComment ('/' :: '/' :: text) := by
      have whole : ('/' :: text ++ rest).takeWhile (· != '\n') = '/' :: text := by
        rw [List.takeWhile_append_of_pos unbroken, ends, List.append_nil]
      refine Eq.trans (Heads.eq (.lineComment ?_ ?_)) (congrArg _ (congrArg _ whole))
      · simp [style]
      · simp [style]
    exact ⟨_, cut_of_first line rfl⟩
  | blockComment text flat =>
    have allowed : BlockBody style.blocks text := flat
    have block := cut_blockComment style_regular allowed before rest
    have shape : ('/' :: '*' :: (text ++ ['*', '/'])) ++ rest = '/' :: '*' :: (text ++ '*' :: '/' :: rest) := by
      simp only [List.append_assoc, List.cons_append, List.nil_append]
    rw [← shape] at block
    exact ⟨['/'], block⟩

def sourceTokens (ended : Bool) : List Line → List Token
  | [] => []
  | line :: lines => line.tokens ++ if lines.isEmpty && !ended then [] else .code '\n' :: sourceTokens ended lines

/-- A script is cut line by line. -/
theorem cut_source (ended : Bool) (lines : List Line) (before : List Char) :
    cut style before (source ended lines) = sourceTokens ended lines := by
  induction lines generalizing before with
  | nil => exact cut_nil
  | cons line lines ih =>
    unfold source sourceTokens
    split
    · obtain ⟨behind, cut_eq⟩ := cut_line line before [] (.inl rfl)
      rw [cut_eq, cut_nil]
    · obtain ⟨behind, cut_eq⟩ := cut_line line before ('\n' :: source ended lines) (.inr ⟨_, rfl⟩)
      rw [cut_eq, cut_newline style_regular, ih]

end Script

end ReviewContext.Source
