import ReviewContext.Proofs.Source.ScriptReaders
import ReviewContext.Proofs.Text.Words

/-! # What a script imports

What a reader finds in a script it finds line by line: no line lets it look into the next, and nothing is found in a
text or a comment. So a script imports the modules that its statements name, as far as these are places in the
repository.
-/

namespace ReviewContext.Source.Script

/-! ## Walking over a line -/

/-- What one of the readers finds in the rest of a text. Calls are looked for within other calls too. -/
def Kind.walk (kind : Kind) (opens : Bool) (cs : List Char) (marks : List Bool) : List (List Char) :=
  match kind.anchor with
  | .word => namings kind.read opens cs marks
  | anchor => statementsFrom anchor kind.read opens 0 cs marks

namespace Kind

variable {kind : Kind} {opens : Bool} {c : Char} {cs rest : List Char} {mark : Bool} {marks : List Bool}

private theorem walk_of_word (called : kind.anchor = .word) :
    kind.walk opens cs marks = namings kind.read opens cs marks := by
  cases kind with
  | imported | effect | exported => cases called
  | required | loaded => rfl

private theorem walk_nil : kind.walk opens [] marks = [] := by
  cases kind <;> rfl

private theorem walk_passed (nothing : kind.read (c :: cs) = none) :
    kind.walk opens (c :: cs) (mark :: marks) = kind.walk (kind.anchor.opensAfter opens c) cs marks := by
  have passed : (if opens then kind.read (c :: cs) else none) = none := by
    rw [nothing]
    split <;> rfl
  have word (read : Reader (List Char)) (passed : (if opens then read (c :: cs) else none) = none) :
      namings read opens (c :: cs) (mark :: marks) = namings read (!Text.isWord c) cs marks := by
    rw [namings_cons, named_of_none passed, List.nil_append]
  cases kind with
  | imported | effect | exported => exact statementsFrom_passed passed
  | required | loaded => exact word _ passed

private theorem walk_newline : kind.walk opens ('\n' :: cs) (mark :: marks) = kind.walk true cs marks := by
  have other : '\n' ≠ kind.initial := by cases kind <;> decide
  have starts : kind.anchor.opensAfter opens '\n' = true := by cases kind <;> rfl
  rw [walk_passed (kind.read_of_other other cs), starts]

private theorem walk_space : kind.walk true (' ' :: cs) (mark :: marks) = kind.walk true cs marks := by
  have other : ' ' ≠ kind.initial := by cases kind <;> decide
  have starts : kind.anchor.opensAfter true ' ' = true := by cases kind <;> decide
  rw [walk_passed (kind.read_of_other other cs), starts]

private theorem walk_newlines (n : Nat) :
    kind.walk true (List.replicate n '\n' ++ cs) (List.replicate n false ++ marks) =
    kind.walk true cs marks := by
  induction n with
  | zero => rfl
  | succ n ih =>
    rw [List.replicate_succ, List.replicate_succ, List.cons_append, List.cons_append, walk_newline, ih]

end Kind

section Walk

variable {kind : Kind} {quote : Char} {text tail : List Char}

/-- On a line that its reader looks at from the start, what is read there is all that is found. -/
theorem walk_of_read (lined : kind.anchor = Imports.indented) {c : Char} {lead rest : List Char}
    {found : Option (List Char)} (solid : Text.isBlank c = false) (inLine : '\n' ∉ around quote (c :: lead) text tail)
    (read_eq : kind.read (around quote (c :: lead) text (tail ++ rest)) = found.map (·, tail ++ rest))
    (marks : List Bool) :
    kind.walk true (around quote (c :: lead) text (tail ++ rest))
        (marksAround (List.replicate (c :: lead).length false) text (List.replicate tail.length false ++ marks)) =
      found.toList ++ kind.walk false rest marks := by
  have whole : around quote (c :: lead) text (tail ++ rest) = c :: (around quote lead text tail ++ rest) := by
    simp only [around, List.cons_append, List.append_assoc]
  have marked : marksAround (List.replicate (c :: lead).length false) text (List.replicate tail.length false ++ marks) =
      false :: (marksAround (List.replicate lead.length false) text (List.replicate tail.length false) ++ marks) := by
    simp only [marksAround, List.length_cons, List.replicate_succ, List.cons_append, List.append_assoc]
  have same : (marksAround (List.replicate lead.length false) text (List.replicate tail.length false)).length =
      (around quote lead text tail).length := by
    simp only [marksAround, around, List.length_append, List.length_cons, List.length_replicate]
  have read_eq : kind.read (c :: (around quote lead text tail ++ rest)) =
      (found.map (·, tail)).map (Prod.map id (· ++ rest)) := by
    rw [← whole, read_eq, Option.map_map]
    rfl
  have line := statementsFrom_line solid inLine same read_eq marks
  rw [Option.map_map] at line
  have names : found.map ((·.1) ∘ (·, tail)) = found := Option.map_id' ..
  rw [names] at line
  rw [whole, marked]
  cases kind with
  | imported | effect | exported => exact line
  | required | loaded => cases lined

private theorem Name.closed : ∀ name : Name, ∀ c ∈ name.text, c ≠ '(' :=
  Name.forall (by decide +kernel)

private theorem Form.closed (form : Form) (lined : form.kind.anchor = Imports.indented) : '(' ∉ form.lead := by
  have all : ∀ c ∈ form.lead, c ≠ '(' := by
    cases form with
    | imported clause =>
      have inner := clause.forall Name.closed (forall_of_all (by decide))
      exact forall_between (by decide) inner (by decide)
    | effect => exact forall_of_all (by decide)
    | exported items =>
      have inner := braced_forall Name.closed (forall_of_all (by decide)) items
      exact forall_between (by decide) inner (by decide)
    | exportedAll => exact forall_of_all (by decide)
    | required | loaded => cases lined
  exact fun member => all '(' member rfl

private theorem assigned_closed (name : Name) : '(' ∉ assigned name := by
  have all : ∀ c ∈ assigned name, c ≠ '(' := forall_between (by decide) name.closed (by decide)
  exact fun member => all '(' member rfl

private theorem opensBehind_assigned (opens : Bool) (name : Name) : opensBehind opens (assigned name) = true := by
  unfold opensBehind assigned
  rw [List.foldl_append]
  rfl

private theorem unquoted_of_spelled {cs : List Char} (spelled : ∀ c ∈ cs, Spelled c) : ∀ c ∈ cs, !isQuote c := by
  intro c member
  obtain ⟨⟨double, single, -⟩, -⟩ := spelled c member
  simp [isQuote, double, single]

/-- Where no parenthesis stands, no call is opened. -/
theorem unopened_of_closed {letters lead : List Char} (closed : '(' ∉ lead) :
    ∀ front opening, lead = front ++ opening → ¬ Imports.Opening letters opening := by
  intro front opening whole made
  exact closed (whole ▸ List.mem_append_right front (Opening.mem made))

/-- A call is written with a name and the keyword in front. -/
theorem Form.exists_call {form : Form} (called : form.kind.anchor = .word) :
    (∃ name, form.lead = assigned name ++ (form.kind.word.toList ++ ['('])) ∧ form.tail = [')', ';'] := by
  cases form with
  | imported | effect | exported | exportedAll => cases called
  | required name =>
    have opening : "require(".toList = Kind.required.word.toList ++ ['('] := by decide
    exact ⟨⟨name, congrArg (assigned name ++ ·) opening⟩, rfl⟩
  | loaded name =>
    have opening : "import(".toList = Kind.loaded.word.toList ++ ['('] := by decide
    exact ⟨⟨name, congrArg (assigned name ++ ·) opening⟩, rfl⟩

/-- No keyword ends where another does. -/
theorem unopened_of_other {kind other : Kind} (called : kind.anchor = .word) (other_called : other.anchor = .word)
    (differ : other ≠ kind) (lead : List Char) : ∀ front opening,
      lead ++ (other.word.toList ++ ['(']) = front ++ opening → ¬ Imports.Opening kind.word.toList opening := by
  have differ : other.word.toList.getLast? ≠ kind.word.toList.getLast? := by
    cases kind with
    | imported | effect | exported => cases called
    | required | loaded =>
      cases other with
      | imported | effect | exported => cases other_called
      | required | loaded => first | exact absurd rfl differ | decide
  intro front opening whole made
  have solid := solid_of_lower other.word_lower other.word_nonempty lead
  rw [← List.append_assoc] at whole
  have same := congrArg List.getLast? (opening_of_suffix made solid whole).1
  rw [List.getLast?_append_of_ne_nil _ other.word_nonempty,
    List.getLast?_append_of_ne_nil _ kind.word_nonempty] at same
  exact differ same

private theorem Form.unopened {kind : Kind} (called : kind.anchor = .word) {form : Form} (other : form.kind ≠ kind) :
    ∀ front opening, form.lead = front ++ opening → ¬ Imports.Opening kind.word.toList opening := by
  rcases form.kind.anchor_cases with lined | other_called
  · exact unopened_of_closed (form.closed lined)
  · obtain ⟨⟨name, lead⟩, -⟩ := form.exists_call other_called
    rw [lead]
    exact unopened_of_other called other_called other (assigned name)

private theorem around_inLine {lead : List Char} (quotes : isQuote quote) (spelled : ∀ c ∈ lead, Spelled c)
    (within : ∀ c ∈ text, c ≠ '\n') (spelled_tail : ∀ c ∈ tail, Spelled c) : '\n' ∉ around quote lead text tail := by
  have solid : quote ≠ '\n' := by rcases eq_of_isQuote quotes with rfl | rfl <;> decide
  have all : ∀ c ∈ around quote lead text tail, c ≠ '\n' :=
    List.forall_mem_append.mpr ⟨fun c member => (spelled c member).2.2.2, List.forall_mem_cons.mpr ⟨solid,
      List.forall_mem_append.mpr ⟨within, List.forall_mem_cons.mpr ⟨solid, fun c member =>
        (spelled_tail c member).2.2.2⟩⟩⟩⟩
  exact fun member => all '\n' member rfl

private theorem walk_statement_lined (lined : kind.anchor = Imports.indented) (form : Form) (quotes : isQuote quote)
    (within : ∀ c ∈ text, inQuotes c) (rest : List Char) (marks : List Bool) :
    kind.walk true (around quote form.lead text (form.tail ++ rest))
        (marksAround (List.replicate form.lead.length false) text (List.replicate form.tail.length false ++ marks)) =
      (if form.kind = kind ∧ text ≠ [] then [text] else []) ++ kind.walk false rest marks := by
  have read_eq : kind.read (around quote form.lead text (form.tail ++ rest)) =
      (if form.kind = kind ∧ text ≠ [] then some text else none).map (·, form.tail ++ rest) := by
    by_cases same : form.kind = kind
    · subst same
      rw [around, read_own lined quotes within]
      by_cases empty : text = [] <;> simp [empty]
    · rw [around, read_foreign lined same quotes, if_neg fun both => same both.1]
      rfl
  obtain ⟨c, lead, shape, letter⟩ := form.exists_lead
  have solid : Text.isBlank c = false := by rcases letter with rfl | rfl | rfl <;> decide
  have unbroken : ∀ c ∈ text, c ≠ '\n' := fun c member => by
    rintro rfl
    exact absurd (within _ member) (by decide)
  have inLine := around_inLine quotes form.spelled_lead unbroken form.spelled_tail
  rw [shape] at read_eq inLine ⊢
  rw [walk_of_read lined solid inLine read_eq]
  split <;> rfl

private theorem Form.ended (form : Form) : ∀ c ∈ form.tail, ¬ c.isLower := by
  rcases form.tail_cases with same | same
  · rw [same]
    exact forall_of_all (by decide)
  · rw [same]
    exact forall_of_all (by decide)

private theorem walk_statement_called (called : kind.anchor = .word) (form : Form) (quotes : isQuote quote)
    (within : ∀ c ∈ text, inQuotes c) (rest : List Char) (marks : List Bool) :
    kind.walk true (around quote form.lead text (form.tail ++ rest))
        (marksAround (List.replicate form.lead.length false) text (List.replicate form.tail.length false ++ marks)) =
      (if form.kind = kind ∧ text ≠ [] then [text] else []) ++
        kind.walk (opensBehind (!Text.isWord quote) form.tail) rest marks := by
  rw [Kind.walk_of_word called, Kind.walk_of_word called, Kind.read_of_word called]
  by_cases same : form.kind = kind
  · subst same
    -- The keyword starts a word, since a blank stands in front of it.
    obtain ⟨⟨name, lead⟩, tail⟩ := form.exists_call called
    have unquoted := unquoted_of_spelled (spelled_assigned name)
    have starts := opensBehind_assigned true name
    have ended : ∀ c ∈ [';'], ¬ c.isLower := forall_of_all (by decide)
    rw [lead, tail, namings_call form.kind.word_lower form.kind.word_nonempty quotes within unquoted starts ended]
    simp only [true_and]
  · have unquoted := unquoted_of_spelled form.spelled_lead
    rw [if_neg fun both => same both.1, List.nil_append]
    exact namings_unopened kind.word_lower kind.word_nonempty quotes unquoted form.ended
      (form.unopened called same) rest marks

/-- A statement is found by the reader of its form, and by no other. -/
theorem walk_statement (kind : Kind) (form : Form) (quotes : isQuote quote) (within : ∀ c ∈ text, inQuotes c) :
    ∃ behind, ∀ rest marks, kind.walk true (around quote form.lead text (form.tail ++ rest))
        (marksAround (List.replicate form.lead.length false) text (List.replicate form.tail.length false ++ marks)) =
      (if form.kind = kind ∧ text ≠ [] then [text] else []) ++ kind.walk behind rest marks := by
  rcases kind.anchor_cases with lined | called
  · exact ⟨false, walk_statement_lined lined form quotes within⟩
  · exact ⟨_, walk_statement_called called form quotes within⟩

/-- Nothing is found in a line with a constant. -/
theorem walk_constant (kind : Kind) (name : Name) (within : ∀ c ∈ text, c ≠ '\n') :
    ∃ behind, ∀ rest marks, kind.walk true (around '"' (assigned name) text ([';'] ++ rest))
        (marksAround (List.replicate (assigned name).length false) text (List.replicate 1 false ++ marks)) =
      kind.walk behind rest marks := by
  have quotes : isQuote '"' := rfl
  have ended : ∀ c ∈ [';'], Spelled c := forall_of_all (by decide)
  rcases kind.anchor_cases with lined | called
  · refine ⟨false, fun rest marks => ?_⟩
    have other : 'c' ≠ kind.initial := by cases kind <;> decide
    have inLine := around_inLine quotes (spelled_assigned name) within ended
    have nothing : kind.read (around '"' (assigned name) text ([';'] ++ rest)) =
        (none : Option (List Char)).map (·, [';'] ++ rest) := Kind.read_of_other other _
    exact walk_of_read lined (by decide) inLine nothing marks
  · have unquoted := unquoted_of_spelled (spelled_assigned name)
    have ended : ∀ c ∈ [';'], ¬ c.isLower := forall_of_all (by decide)
    refine ⟨opensBehind (!Text.isWord '"') [';'], fun rest marks => ?_⟩
    rw [Kind.walk_of_word called, Kind.walk_of_word called, Kind.read_of_word called]
    exact namings_unopened kind.word_lower kind.word_nonempty quotes unquoted ended
      (unopened_of_closed (assigned_closed name)) rest marks

end Walk

/-! ## Walking over a script -/

open Token

theorem kept_code (cs : List Char) : (cs.map Token.code).flatMap kept = cs := by
  rw [List.flatMap_map]
  exact List.flatMap_singleton' cs

theorem quotation_code (cs : List Char) : quotation (cs.map .code) = List.replicate cs.length false := by
  induction cs with
  | nil => rfl
  | cons c cs ih =>
    rw [List.map_cons, quotation_cons, ih]
    rfl

private theorem kept_quoted (lead : List Char) (quote : Char) (text tail rest : List Char) :
    (quotedTokens lead quote text tail).flatMap kept ++ rest = around quote lead text (tail ++ rest) := by
  rw [quotedTokens, flatMap_kept_around, kept_code, kept_code]
  simp only [around, List.append_assoc, List.cons_append]

private theorem quotation_quoted (lead : List Char) (quote : Char) (text tail : List Char) (marks : List Bool) :
    quotation (quotedTokens lead quote text tail) ++ marks =
      marksAround (List.replicate lead.length false) text (List.replicate tail.length false ++ marks) := by
  rw [quotedTokens, quotation_around, quotation_code, quotation_code]
  simp only [marksAround, List.append_assoc, List.cons_append]

/-- A reader finds in a line the module that the line names, and goes on behind it. -/
theorem walk_line (kind : Kind) (line : Line) : ∃ behind, ∀ rest marks,
    kind.walk true (line.tokens.flatMap kept ++ rest) (quotation line.tokens ++ marks) =
      (line.named? kind).toList ++ kind.walk behind rest marks := by
  cases line with
  | statement form mark module =>
    have within : ∀ c ∈ module.text, inQuotes c := fun c member => (module.plain c member).1
    obtain ⟨behind, walk_eq⟩ := walk_statement kind form mark.isQuote_char within
    refine ⟨behind, fun rest marks => ?_⟩
    rw [Line.tokens, kept_quoted, quotation_quoted, walk_eq, Line.named?]
    split <;> rfl
  | constant name text plain =>
    obtain ⟨behind, walk_eq⟩ := walk_constant kind name fun c member => (plain c member).2.2
    refine ⟨behind, fun rest marks => ?_⟩
    rw [Line.tokens, kept_quoted, quotation_quoted]
    exact walk_eq rest marks
  -- Of a comment only blanks are left, and a statement may start behind them.
  | lineComment text inLine =>
    have kept_eq : (Token.lineComment ('/' :: '/' :: text)).kept = [] :=
      congrArg Prod.fst (left_lineComment style_regular inLine)
    refine ⟨true, fun rest marks => ?_⟩
    rw [Line.tokens, List.flatMap_singleton, quotation_cons, kept_eq]
    rfl
  | blockComment text flat =>
    have kept_eq : (Token.blockComment ('/' :: '*' :: (text ++ ['*', '/']))).kept =
        ' ' :: List.replicate (text.count '\n') '\n' := congrArg Prod.fst (left_blockComment text)
    refine ⟨true, fun rest marks => ?_⟩
    rw [Line.tokens, List.flatMap_singleton, quotation_cons, kept_eq, List.length_cons, List.length_replicate,
      List.replicate_succ, quotation, List.flatMap_nil, List.append_nil]
    exact Kind.walk_space.trans (Kind.walk_newlines _)

theorem quotation_append (found later : List Token) :
    quotation (found ++ later) = quotation found ++ quotation later :=
  List.flatMap_append

/-- A reader finds in a script what it finds in its lines, one after the other. -/
theorem walk_source (kind : Kind) (ended : Bool) (lines : List Line) :
    kind.walk true ((sourceTokens ended lines).flatMap kept) (quotation (sourceTokens ended lines)) =
      lines.flatMap fun line => (line.named? kind).toList := by
  induction lines with
  | nil => exact Kind.walk_nil
  | cons line lines ih =>
    obtain ⟨behind, walk_eq⟩ := walk_line kind line
    unfold sourceTokens
    rw [List.flatMap_append, quotation_append, walk_eq, List.flatMap_cons]
    refine congrArg _ ?_
    split
    · next last =>
      obtain rfl : lines = [] := by simpa using ((Bool.and_eq_true ..).mp last).1
      exact Kind.walk_nil
    · rw [← ih]
      exact Kind.walk_newline

/-! ## The imports of a script -/

/-- The text names a place in the repository. -/
def InRepository (text : List Char) : Prop :=
  text = ['.'] ∨ text = ['.', '.'] ∨ ['.', '/'] <+: text ∨ ['.', '.', '/'] <+: text

instance (text : List Char) : Decidable (InRepository text) :=
  inferInstanceAs (Decidable (_ ∨ _))

section Language

variable {language : Language}

private theorem isRelative_iff (script : language = .javascript ∨ language = .typescript) {text : List Char} :
    language.isRelative text = true ↔ InRepository text := by
  rcases script with rfl | rfl
  · simp [Language.isRelative, InRepository, List.isPrefixOf_iff_prefix, or_assoc]
  · simp [Language.isRelative, InRepository, List.isPrefixOf_iff_prefix, or_assoc]

/-- The search skips a call within another, which names no place in the repository. -/
theorem statements_filter (script : language = .javascript ∨ language = .typescript) (kind : Kind) (cs : List Char)
    (marks : List Bool) :
    (statements kind.anchor kind.read cs marks).filter (language.isRelative ∘ Text.trim) =
      (kind.walk true cs marks).filter (language.isRelative ∘ Text.trim) := by
  rcases kind.anchor_cases with lined | called
  · cases kind with
    | imported | effect | exported => rfl
    | required | loaded => cases lined
  · have apart : Apart (language.isRelative ∘ Text.trim) (Imports.call? kind.word) :=
      Imports.call?_apart kind.word_lower kind.word_nonempty fun gap more blank =>
        not_isRelative_closing script blank more
    rw [Kind.walk_of_word called, Kind.read_of_word called, called, statements]
    exact apart.statementsFrom_filter true cs marks

end Language

private theorem Module.trim_text (module : Module) : Text.trim module.text = module.text :=
  Text.trim_of_trimmed ⟨module.first, module.last⟩

private theorem Line.named?_eq_some_iff {kind : Kind} {line : Line} {text : List Char} : line.named? kind = some text ↔
    ∃ form mark module, line = .statement form mark module ∧ form.kind = kind ∧ module.text = text ∧ text ≠ [] := by
  constructor
  · intro named
    cases line with
    | statement form mark module =>
      rw [named?] at named
      obtain ⟨⟨same, nonempty⟩, taken⟩ := Option.ite_none_right_eq_some.mp named
      obtain rfl := Option.some.inj taken
      exact ⟨form, mark, module, rfl, same, rfl, nonempty⟩
    | constant | lineComment | blockComment => cases named
  · rintro ⟨form, mark, module, rfl, same, rfl, nonempty⟩
    exact if_pos ⟨same, nonempty⟩

/-- A script imports just the modules that its statements name as places in the repository. -/
theorem imports_of_source (path : String)
    (script : Language.ofPath path = .javascript ∨ Language.ofPath path = .typescript) (ended : Bool)
    (lines : List Line) (x : String) :
    x ∈ (SourceRecord.parse path (String.ofList (source ended lines))).imports ↔
      ∃ form mark module, .statement form mark module ∈ lines ∧ InRepository module.text ∧
        x = String.ofList module.text := by
  have cut_eq : tokens style (source ended lines) = sourceTokens ended lines := cut_source ended lines []
  rw [parse_eq (style_known script), cut_eq]
  generalize Language.ofPath path = language at script
  unfold SourceRecord.ofTokens
  dsimp only
  rw [Text.distinct_eq_eraseDups, List.mem_eraseDups, written_eq script, List.filter_map, List.filter_flatMap]
  simp only [statements_filter script, walk_source, List.mem_map, List.mem_flatMap, List.mem_filter,
    Option.mem_toList, Function.comp_apply, isRelative_iff script]
  constructor
  · rintro ⟨_, ⟨text, ⟨kind, -, ⟨line, member, named⟩, inside⟩, rfl⟩, rfl⟩
    obtain ⟨form, mark, module, rfl, -, rfl, -⟩ := Line.named?_eq_some_iff.mp named
    rw [module.trim_text] at inside ⊢
    exact ⟨form, mark, module, member, inside, rfl⟩
  · rintro ⟨form, mark, module, member, inside, rfl⟩
    have nonempty : module.text ≠ [] := by
      intro empty
      rw [empty] at inside
      exact absurd inside (by decide)
    have named := Line.named?_eq_some_iff.mpr ⟨form, mark, module, rfl, rfl, rfl, nonempty⟩
    refine ⟨module.text, ⟨module.text, ⟨form.kind, form.kind.mem_all, ⟨_, member, named⟩, ?_⟩, module.trim_text⟩, rfl⟩
    rw [module.trim_text]
    exact inside

/-- A script with statements of several forms, a comment and a text that look like statements. -/
def mixedScript : List Line :=
  let a : Name := ⟨['a'], by decide, forall_of_all (by decide)⟩
  let b : Name := ⟨['b'], by decide, forall_of_all (by decide)⟩
  let place : Module := ⟨"./a".toList, forall_of_all (by decide), by decide, by decide⟩
  let other : Module := ⟨['p'], forall_of_all (by decide), by decide, by decide⟩
  let parent : Module := ⟨"../e".toList, forall_of_all (by decide), by decide, by decide⟩
  [.statement (.imported (.parts [⟨a, none⟩, ⟨b, some a⟩])) .double place,
    .lineComment " import './b'".toList (by decide),
    .constant a "require('./c".toList (forall_of_all (by decide)),
    .statement .effect .single other,
    .blockComment "\nimport './d'\n".toList (mt (Text.occursIn_iff_infix _ _).mpr (by decide)),
    .statement (.required b) .single parent]

/-- Statements in comments and in a literal give nothing, and a package that is not a path gives nothing either. -/
theorem imports_of_source_of_page :
    Language.ofPath "a.ts" = .typescript ∧
      (SourceRecord.parse "a.ts" (String.ofList (source false mixedScript))).imports = ["./a", "../e"] ∧
      ∀ x, x ∈ (SourceRecord.parse "a.ts" (String.ofList (source false mixedScript))).imports ↔
        ∃ form mark module, .statement form mark module ∈ mixedScript ∧ InRepository module.text ∧
          x = String.ofList module.text := by
  have typescript : Language.ofPath "a.ts" = .typescript := by decide +kernel
  exact ⟨typescript, by decide +kernel, imports_of_source "a.ts" (.inr typescript) false mixedScript⟩

end ReviewContext.Source.Script
