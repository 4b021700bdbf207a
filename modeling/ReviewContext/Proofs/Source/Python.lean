import ReviewContext.Proofs.Source.ReturnImports
import ReviewContext.Proofs.Source.Script
import ReviewContext.Proofs.Text.Words

/-! # Modules of Python

A module is a row of lines, and each is an import of one of three forms, a comment, or a text in three quotes. Such a
source is cut line by line, and of a comment or a text only the newlines are left. On the line of an import each
reader finds what its form names, or nothing.
-/

namespace ReviewContext.Source.Python

/-! ## What a line says -/

/-- A name, made of word characters. -/
structure Name where
  text : List Char
  nonempty : text ≠ []
  word : ∀ c ∈ text, Text.isWord c

/-- Names with dots between them. -/
structure Module where
  first : Name
  rest : List Name

def Module.text (module : Module) : List Char :=
  module.first.text ++ module.rest.flatMap fun name => '.' :: name.text

/-- Something imported, perhaps under another name. -/
structure Item where
  name : Name
  renamed : Option Name

def Item.text (item : Item) : List Char :=
  item.name.text ++ (item.renamed.elim [] fun other => " as ".toList ++ other.text)

/-- `a, b as c`; there is always one. -/
structure Listing where
  first : Item
  rest : List Item

namespace Listing

def items (listing : Listing) : List Item :=
  listing.first :: listing.rest

def text (listing : Listing) : List Char :=
  listing.first.text ++ listing.rest.flatMap fun item => ", ".toList ++ item.text

end Listing

/-- The dots in front of a module tell how many packages up it is. -/
def dotted (dots : Nat) : List Char :=
  List.replicate dots '.'

/-- The lines that import something. -/
inductive Form where
  | fromModule (dots : Nat) (module : Module) (listing : Listing)
  | fromPackage (dots : Nat) (present : 0 < dots) (listing : Listing)
  | plain (module : Module)

/-- A line of a module, or a text in three quotes. -/
inductive Line where
  | statement (form : Form)
  | comment (text : List Char) (inLine : '\n' ∉ text)
  | prose (mark : Script.QuoteMark) (text : List Char) (unquoted : mark.char ∉ text)

namespace Form

def text : Form → List Char
  | fromModule dots module listing =>
    "from ".toList ++ (dotted dots ++ module.text) ++ " import ".toList ++ listing.text
  | fromPackage dots _ listing => "from ".toList ++ dotted dots ++ " import ".toList ++ listing.text
  | plain module => "import ".toList ++ module.text

/-- The places in the repository that a line imports. -/
def imports : Form → List (List Char)
  | fromModule dots module _ => if dots = 0 then [] else [dotted dots ++ module.text]
  | fromPackage dots _ listing => dotted dots :: listing.items.map (dotted dots ++ ·.name.text)
  | plain _ => []

end Form

/-- A text in three quotes. -/
def fenced (quote : Char) (text : List Char) : List Char :=
  quote :: quote :: quote :: (text ++ [quote, quote, quote])

namespace Line

def text : Line → List Char
  | statement form => form.text
  | comment text _ => '#' :: text
  | prose mark text _ => fenced mark.char text

def imports : Line → List (List Char)
  | statement form => form.imports
  | comment .. | prose .. => []

end Line

/-- The text of a module. -/
def source (lines : List Line) : List Char :=
  lines.flatMap (·.text ++ ['\n'])

/-! ## The characters of a statement -/

section Forall

variable {p : Char → Prop} (word : ∀ c, Text.isWord c → p c)
include word

/-- What holds of all word characters holds of a name. -/
theorem Name.forall (name : Name) : ∀ c ∈ name.text, p c :=
  fun c member => word c (name.word c member)

/-- What holds of all word characters and of the dot holds of a module. -/
theorem Module.forall (dot : p '.') (module : Module) : ∀ c ∈ module.text, p c := by
  refine List.forall_mem_append.mpr ⟨module.first.forall word, fun c member => ?_⟩
  obtain ⟨name, -, inside⟩ := List.mem_flatMap.mp member
  rcases List.mem_cons.mp inside with rfl | inside
  · exact dot
  · exact name.forall word c inside

theorem Item.forall (space : p ' ') (item : Item) : ∀ c ∈ item.text, p c := by
  refine List.forall_mem_append.mpr ⟨item.name.forall word, ?_⟩
  cases item.renamed with
  | none => exact fun _ member => nomatch member
  | some other =>
    have between : ∀ c ∈ " as ".toList, c = ' ' ∨ Text.isWord c := Script.forall_of_all (by decide)
    refine List.forall_mem_append.mpr ⟨fun c member => ?_, other.forall word⟩
    rcases between c member with rfl | inside
    · exact space
    · exact word c inside

theorem Listing.forall (space : p ' ') (comma : p ',') (listing : Listing) : ∀ c ∈ listing.text, p c := by
  refine List.forall_mem_append.mpr ⟨listing.first.forall word space, fun c member => ?_⟩
  obtain ⟨item, -, inside⟩ := List.mem_flatMap.mp member
  have separator : ∀ c ∈ ", ".toList, c = ',' ∨ c = ' ' := Script.forall_of_all (by decide)
  rcases List.mem_append.mp inside with between | inside
  · rcases separator c between with rfl | rfl
    · exact comma
    · exact space
  · exact item.forall word space c inside

end Forall

/-- What starts a name is a word character. -/
theorem Name.exists_cons (name : Name) : ∃ c cs, name.text = c :: cs ∧ Text.isWord c := by
  obtain ⟨c, cs, shape⟩ := List.exists_cons_of_ne_nil name.nonempty
  exact ⟨c, cs, shape, name.word c (shape ▸ List.mem_cons_self)⟩

theorem Module.exists_cons (module : Module) : ∃ c cs, module.text = c :: cs ∧ Text.isWord c := by
  obtain ⟨c, cs, shape, word⟩ := module.first.exists_cons
  exact ⟨c, _, by rw [Module.text, shape]; rfl, word⟩

theorem Listing.exists_cons (listing : Listing) : ∃ c cs, listing.text = c :: cs ∧ Text.isWord c := by
  obtain ⟨c, cs, shape, word⟩ := listing.first.name.exists_cons
  exact ⟨c, _, by rw [Listing.text, Item.text, shape]; rfl, word⟩

/-- What the names and the marks of a statement are made of. -/
def Spelled (c : Char) : Prop :=
  Text.isWord c ∨ c = '.' ∨ c = ' ' ∨ c = ','

instance (c : Char) : Decidable (Spelled c) :=
  inferInstanceAs (Decidable (_ ∨ _))

private theorem Spelled.ne {c d : Char} (spelled : Spelled c) (other : ¬ Spelled d) : c ≠ d := by
  rintro rfl
  exact other spelled

private theorem spelled_dotted (dots : Nat) : ∀ c ∈ dotted dots, Spelled c := by
  intro c member
  rw [List.eq_of_mem_replicate member]
  decide

private theorem Form.spelled (form : Form) : ∀ c ∈ form.text, Spelled c := by
  have word : ∀ c, Text.isWord c → Spelled c := fun _ => Or.inl
  have modules := Module.forall word (by decide)
  have listings := Listing.forall word (by decide) (by decide)
  cases form with
  | fromModule dots module listing =>
    have path := List.forall_mem_append.mpr ⟨spelled_dotted dots, modules module⟩
    have lead : ∀ c ∈ "from ".toList ++ (dotted dots ++ module.text) ++ " import ".toList, Spelled c :=
      Script.forall_between (by decide) path (by decide)
    exact List.forall_mem_append.mpr ⟨lead, listings listing⟩
  | fromPackage dots present listing =>
    have lead : ∀ c ∈ "from ".toList ++ dotted dots ++ " import ".toList, Spelled c :=
      Script.forall_between (by decide) (spelled_dotted dots) (by decide)
    exact List.forall_mem_append.mpr ⟨lead, listings listing⟩
  | plain module => exact List.forall_mem_append.mpr ⟨Script.forall_of_all (by decide), modules module⟩

theorem Form.inLine (form : Form) : '\n' ∉ form.text :=
  fun member => (form.spelled '\n' member).ne (by decide) rfl

/-- The first letter of the keyword. -/
def Form.initial : Form → Char
  | fromModule .. | fromPackage .. => 'f'
  | plain _ => 'i'

/-- A statement starts with the first letter of `from` or of `import`. -/
theorem Form.initial_mem (form : Form) : form.initial ∈ ['f', 'i'] := by
  cases form with
  | fromModule | fromPackage => exact List.mem_cons_self
  | plain => exact List.mem_cons_of_mem 'f' List.mem_cons_self

theorem Form.exists_cons (form : Form) : ∃ cs, form.text = form.initial :: cs := by
  cases form with
  | fromModule | fromPackage | plain => exact ⟨_, rfl⟩

section Line

variable (dots : Nat) (module : Module) (listing : Listing) (rest : List Char)

theorem Form.line_fromModule : (fromModule dots module listing).text ++ rest =
    "from ".toList ++ ((dotted dots ++ module.text) ++ (" import ".toList ++ (listing.text ++ rest))) := by
  unfold Form.text
  simp only [List.append_assoc]

theorem Form.line_fromPackage (present : 0 < dots) : (fromPackage dots present listing).text ++ rest =
    "from ".toList ++ (dotted dots ++ (" import ".toList ++ (listing.text ++ rest))) := by
  unfold Form.text
  simp only [List.append_assoc]

theorem Form.line_plain : (plain module).text ++ rest = "import ".toList ++ (module.text ++ rest) := by
  unfold Form.text
  rw [List.append_assoc]

end Line

/-! ## Tokens -/

open Token

/-- The comments and literals of Python. -/
def style : CommentStyle :=
  ⟨['#'], .absent, ['"', '\''], [], true⟩

theorem style_known {language : Language} (python : language = .python) : language.commentStyle? = some style := by
  rw [python]
  rfl

theorem style_regular : style.Regular :=
  Language.regular (style_known rfl)

private theorem Spelled.inert {c : Char} (spelled : Spelled c) : Inert style c := by
  have double : c ≠ '"' := spelled.ne (by decide)
  have single : c ≠ '\'' := spelled.ne (by decide)
  have hash : c ≠ '#' := spelled.ne (by decide)
  have slash : c ≠ '/' := spelled.ne (by decide)
  exact ⟨by simp [style, double, single], by simp [style, hash.symm], slash, double, single⟩

def Line.tokens : Line → List Token
  | statement form => form.text.map .code
  | comment text _ => [.lineComment ('#' :: text)]
  | prose mark text _ => [.docstring (fenced mark.char text)]

private theorem docstringLength_text {quote : Char} {text : List Char} (unquoted : quote ∉ text) (rest : List Char) :
    docstringLength quote (text ++ quote :: quote :: quote :: rest) = text.length + 3 := by
  induction text with
  | nil =>
    rw [List.nil_append, docstringLength, if_pos]
    · rfl
    · simp
  | cons c text ih =>
    obtain ⟨other, later⟩ := not_or.mp (mt List.mem_cons.mpr unquoted)
    rw [List.cons_append, docstringLength, if_neg, ih later]
    · rfl
    · simp [other]

private theorem cut_prose (mark : Script.QuoteMark) {text : List Char} (unquoted : mark.char ∉ text)
    (before rest : List Char) :
    cut style before (fenced mark.char text ++ '\n' :: rest) =
      .docstring (fenced mark.char text) :: .code '\n' :: cut style ['\n'] rest := by
  have shape : fenced mark.char text ++ '\n' :: rest =
      mark.char :: mark.char :: mark.char :: (text ++ mark.char :: mark.char :: mark.char :: '\n' :: rest) := by
    simp [fenced]
  have opens : style.docstrings && opensDocstring (fenced mark.char text ++ '\n' :: rest) := by
    rw [shape]
    cases mark <;> rfl
  have taken : (fenced mark.char text ++ '\n' :: rest).take (text.length + 3 + 3) = fenced mark.char text :=
    List.take_left' (by simp [fenced])
  rw [shape] at opens taken
  have head : first style before mark.char _ = _ := (Heads.docstring opens).eq
  rw [List.drop_succ_cons, List.drop_succ_cons, List.drop_zero, docstringLength_text unquoted, taken] at head
  rw [shape, cut_of_first head shape.symm, cut_newline style_regular]

private theorem cut_line (line : Line) (before rest : List Char) :
    cut style before (line.text ++ '\n' :: rest) = line.tokens ++ .code '\n' :: cut style ['\n'] rest := by
  cases line with
  | statement form =>
    rw [Line.text, cut_inert fun c member => (form.spelled c member).inert, cut_newline style_regular, Line.tokens]
  | comment text inLine => exact cut_lineComment style_regular inLine before rest
  | prose mark text unquoted => exact cut_prose mark unquoted before rest

/-- The tokens of a module. -/
def sourceTokens (lines : List Line) : List Token :=
  lines.flatMap (·.tokens ++ [.code '\n'])

/-- The tokens of a line stand in front of those of the lines behind it. -/
theorem sourceTokens_cons (line : Line) (lines : List Line) :
    sourceTokens (line :: lines) = line.tokens ++ .code '\n' :: sourceTokens lines := by
  rw [sourceTokens, List.flatMap_cons, List.append_assoc]
  rfl

/-- A module is cut line by line. -/
theorem cut_source (lines : List Line) (before : List Char) :
    cut style before (source lines) = sourceTokens lines := by
  induction lines generalizing before with
  | nil => exact cut_nil
  | cons line lines ih =>
    rw [source, List.flatMap_cons, List.append_assoc, List.singleton_append, cut_line, ← source, ih,
      sourceTokens_cons]

end ReviewContext.Source.Python
