import ReviewContext.Proofs.Source.Unfinished
import ReviewContext.Proofs.Text.Words
import ReviewContext.Source.Record

/-! # What records are made of

A record holds nothing but names. Whatever the text is, an import has no blank at its ends and is spelled in the
characters of its language, and an export is a name with a capital in front. All of it is told of one reader at a
time, since a search gives only what its reader gives.
-/

namespace ReviewContext

/-- Whether a character may stand in an import that is a place in the repository. -/
def Language.inImport (language : Language) (c : Char) : Bool :=
  match language with
  | .rust => !Text.isBlank c && c != ';'
  | .python => c == '.' || Text.isWord c
  | .javascript | .typescript | .go => c != '\n' && c != '"'
  | .swift | .kotlin | .java | .unknown => false

/-- A capital letter of ASCII, and behind it what may stand in names. -/
def Source.Exports.Capitalised (name : List Char) : Prop :=
  ∃ c cs, name = c :: cs ∧ c.isUpper ∧ ∀ d ∈ cs, Text.isWord d ∨ d = '$'

namespace SourceRecord

/-- What holds of every record, by its language. -/
structure WellFormed (record : SourceRecord) : Prop where
  relative : ∀ path ∈ record.imports, record.language.isRelative path.toList
  trimmed : ∀ path ∈ record.imports, Text.Trimmed path.toList
  spelled : ∀ path ∈ record.imports, ∀ c ∈ path.toList, record.language.inImport c
  rooted : record.language = .rust → ∀ path ∈ record.imports,
    "self::".toList <+: path.toList ∨ "super::".toList <+: path.toList ∨ "crate::".toList <+: path.toList
  dotted : record.language = .python → ∀ path ∈ record.imports, ['.'] <+: path.toList
  foreign : record.language.hasRelativeImports = false → record.imports = []
  exports : ∀ name ∈ record.exports, Source.Exports.Capitalised name.toList

end SourceRecord

namespace Source

/-! ## What readers give -/

/-- The reader gives nothing without the property. -/
def Gives {α : Type} (p : α → Prop) (read : Reader α) : Prop :=
  ∀ cs name left, read cs = some (name, left) → p name

variable {α : Type} {p : α → Prop} {read : Reader α}

private theorem Gives.statementsFrom (gives : Gives p read) (anchor : Anchor) (opens : Bool) (skip : Nat)
    (cs : List Char)
    (quoted : List Bool) : ∀ name ∈ statementsFrom anchor read opens skip cs quoted, p name := by
  induction cs generalizing opens skip quoted with
  | nil => exact nofun
  | cons c cs ih =>
    cases skip with
    | succ skip => exact ih opens skip quoted.tail
    | zero =>
      cases found : if opens then read (c :: cs) else none with
      | none =>
        rw [statementsFrom_passed found]
        apply ih
      | some out =>
        obtain ⟨first, left⟩ := out
        obtain ⟨-, found'⟩ := Option.ite_none_right_eq_some.mp found
        rw [statementsFrom_found found]
        intro name member
        rcases List.mem_append.mp member with named | later
        · obtain rfl : name = first := by
            split at named
            · cases named
            · exact List.mem_singleton.mp named
          exact gives _ _ _ found'
        · exact ih _ _ _ name later

private theorem Gives.statements (gives : Gives p read) (anchor : Anchor) (cs : List Char) (quoted : List Bool) :
    ∀ name ∈ statements anchor read cs quoted, p name :=
  gives.statementsFrom anchor true 0 cs quoted

private theorem Gives.bind (gives : Gives p read) (piece : List Char → Option (List Char)) :
    Gives p fun cs => piece cs >>= read := by
  intro cs name left found
  obtain ⟨middle, -, found⟩ := Option.bind_eq_some_iff.mp found
  exact gives middle name left found

private theorem Gives.comp (gives : Gives p read) (skip : List Char → List Char) : Gives p fun cs => read (skip cs) :=
  fun cs => gives (skip cs)

private theorem run?_gives (inClass : Char → Bool) : Gives (fun run => ∀ c ∈ run, inClass c) (run? inClass) := by
  intro cs run left found
  rw [run?_eq] at found
  split at found
  · cases found
  · cases found
    exact fun c member => List.mem_takeWhile_imp member

private theorem quotedText?_gives : Gives (fun text => ∀ c ∈ text, inQuotes c) quotedText? := by
  intro cs text left found
  obtain ⟨_, _, _, _, _, _, within⟩ := quotedText?_eq_some_iff.mp found
  exact within

private theorem typeName?_gives {inName : Char → Bool} (named : ∀ c, inName c → Text.isWord c ∨ c = '$') :
    Gives Exports.Capitalised (typeName? inName) := by
  intro cs name left found
  cases cs with
  | nil => cases found
  | cons c cs =>
    obtain ⟨upper, taken⟩ := Option.ite_none_right_eq_some.mp found
    cases taken
    exact ⟨c, _, rfl, upper, fun d member => named d (List.mem_takeWhile_imp member)⟩

/-! ## Imports -/

namespace Imports

variable {language : Language}

/-- An import that is spelled in the characters of its language, but for blanks at its ends. -/
def Spelled (language : Language) (path : List Char) : Prop :=
  ∀ c ∈ path, language.inImport c

section Script

variable (script : language = .javascript ∨ language = .typescript)
include script

private theorem quotedText?_spelled : Gives (Spelled language) quotedText? := by
  intro cs text left found c member
  have inside := quotedText?_gives _ _ _ found c member
  rcases script with rfl | rfl
  all_goals
    simp only [inQuotes, isQuote, Language.inImport, Bool.and_eq_true, Bool.not_eq_true', Bool.or_eq_false_iff,
      beq_eq_false_iff_ne, bne_iff_ne] at inside ⊢
    exact ⟨inside.2, inside.1.1⟩

private theorem namesFrom?_spelled (word : String) : Gives (Spelled language) (namesFrom? word) := by
  rw [namesFrom?_eq]
  exact (quotedText?_spelled script).bind _

private theorem call?_spelled (word : String) : Gives (Spelled language) (call? word) := by
  rw [call?_eq]
  apply Gives.bind
  intro cs path left found
  obtain ⟨⟨text, rest⟩, quoted, closed⟩ := Option.bind_eq_some_iff.mp found
  obtain ⟨_, _, same⟩ := Option.map_eq_some_iff.mp closed
  cases same
  exact quotedText?_spelled script _ _ _ quoted

end Script

private theorem use?_spelled : Gives (Spelled .rust) use? := by
  intro cs path left found
  rw [use?_eq] at found
  obtain ⟨rest, -, found⟩ := Option.bind_eq_some_iff.mp found
  obtain ⟨after, -, found⟩ := Option.bind_eq_some_iff.mp found
  obtain ⟨-, taken⟩ := Option.ite_none_right_eq_some.mp found
  cases taken
  intro c member
  obtain ⟨member, solid⟩ := List.mem_filter.mp member
  have inside := List.mem_takeWhile_imp member
  exact (Bool.and_eq_true ..).mpr ⟨solid, inside⟩

private theorem inImport_of_isWord {c : Char} (word : Text.isWord c) : Language.inImport .rust c := by
  have solid := Text.not_isBlank_of_isWord word
  have other : c ≠ ';' := by
    rintro rfl
    exact absurd word (by decide)
  simp [Language.inImport, solid, other]

private theorem mod?_spelled : Gives (Spelled .rust) mod? := by
  intro cs path left found
  rw [mod?_eq] at found
  obtain ⟨rest, -, found⟩ := Option.bind_eq_some_iff.mp found
  obtain ⟨⟨name, rest⟩, run, found⟩ := Option.bind_eq_some_iff.mp found
  obtain ⟨_, _, same⟩ := Option.map_eq_some_iff.mp found
  cases same
  have word := run?_gives Text.isWord _ _ _ run
  intro c member
  rcases List.mem_append.mp member with inRoot | inName
  · exact List.all_eq_true.mp (by decide : "self::".toList.all (Language.inImport .rust)) c inRoot
  · exact inImport_of_isWord (word c inName)

private theorem doubleQuoted?_spelled : Gives (Spelled .go) doubleQuoted? := by
  apply Gives.bind
  intro cs path left found
  obtain ⟨⟨text, rest⟩, run, found⟩ := Option.bind_eq_some_iff.mp found
  obtain ⟨_, _, same⟩ := Option.bind_eq_some_iff.mp found
  cases same
  intro c member
  have inside := run?_gives _ _ _ _ run c member
  rwa [Bool.and_comm] at inside

private theorem single?_spelled : Gives (Spelled .go) single? :=
  (doubleQuoted?_spelled.comp _).bind _

private theorem inDottedName_inImport {c : Char} (named : inDottedName c) : Language.inImport .python c := by
  rwa [inDottedName, Bool.or_comm] at named

private theorem fromModule?_spelled : Gives (Spelled .python) fromModule? := by
  apply Gives.bind
  intro cs path left found
  obtain ⟨⟨name, rest⟩, run, found⟩ := Option.bind_eq_some_iff.mp found
  obtain ⟨after, -, found⟩ := Option.bind_eq_some_iff.mp found
  obtain ⟨-, same⟩ := Option.ite_none_left_eq_some.mp found
  cases same
  exact fun c member => inDottedName_inImport (run?_gives _ _ _ _ run c member)

private theorem plain?_spelled : Gives (Spelled .python) plain? := by
  apply Gives.bind
  intro cs path left found
  exact fun c member => inDottedName_inImport (run?_gives _ _ _ _ found c member)

private theorem fromPackage?_gives :
    Gives (fun (dots, names) => (∀ c ∈ dots, c = '.') ∧ ∀ c ∈ names, Text.isWord c ∨ isSpaceOrTab c ∨ c = ',')
      fromPackage? := by
  intro cs (dots, names) left found
  obtain ⟨⟨dots', rest⟩, dotted, found⟩ := Option.bind_eq_some_iff.mp found
  obtain ⟨rest', -, dotted⟩ := Option.bind_eq_some_iff.mp dotted
  obtain ⟨rest'', -, found⟩ := Option.bind_eq_some_iff.mp found
  obtain ⟨⟨names', after⟩, listed, found⟩ := Option.bind_eq_some_iff.mp found
  obtain ⟨-, same⟩ := Option.ite_none_right_eq_some.mp found
  cases same
  constructor
  · intro c member
    simpa using run?_gives _ _ _ _ dotted c member
  · intro c member
    simpa [or_assoc] using run?_gives _ _ _ _ listed c member

theorem isBlank_of_isSpaceOrTab {c : Char} (inline : isSpaceOrTab c) : Text.isBlank c := by
  simp only [isSpaceOrTab, Bool.or_eq_true, beq_iff_eq] at inline
  rcases inline with rfl | rfl <;> rfl

private theorem siblings_spelled {dots names : List Char} (dotted : ∀ c ∈ dots, c = '.')
    (listed : ∀ c ∈ names, Text.isWord c ∨ isSpaceOrTab c ∨ c = ',') :
    ∀ path ∈ siblings dots names, Spelled .python path := by
  intro path member
  obtain ⟨item, isItem, found⟩ := List.mem_filterMap.mp member
  obtain ⟨word, head, rfl⟩ := Option.map_eq_some_iff.mp found
  intro c inside
  rcases List.mem_append.mp inside with inDots | inWord
  · rw [dotted c inDots]
    rfl
  · obtain ⟨inItem, solid⟩ := Text.mem_of_mem_words (List.mem_of_head? head) c inWord
    obtain ⟨inNames, other⟩ := Text.mem_of_mem_splitBy isItem c inItem
    rcases listed c inNames with isWord | inline | comma
    · exact (Bool.or_eq_true ..).mpr (.inr isWord)
    · exact absurd (isBlank_of_isSpaceOrTab inline) solid
    · exact absurd (beq_iff_eq.mpr comma) other

private theorem written_spelled (language : Language) (text : List Char) (quoted : List Bool) :
    ∀ path ∈ written language text quoted, Spelled language path := by
  have script (script : language = .javascript ∨ language = .typescript) (path : List Char)
      (member : path ∈ written language text quoted) : Spelled language path := by
    rw [written_of_script script] at member
    simp only [List.mem_append] at member
    rcases member with (((member | member) | member) | member) | member
    · exact (namesFrom?_spelled script "import").statements _ _ _ path member
    · exact ((quotedText?_spelled script).bind _).statements _ _ _ path member
    · exact (namesFrom?_spelled script "export").statements _ _ _ path member
    · exact (call?_spelled script "require").statements _ _ _ path member
    · exact (call?_spelled script "import").statements _ _ _ path member
  intro path member
  cases language with
  | javascript => exact script (.inl rfl) path member
  | typescript => exact script (.inr rfl) path member
  | rust =>
    rcases List.mem_append.mp member with member | member
    · exact use?_spelled.statements _ _ _ path member
    · exact mod?_spelled.statements _ _ _ path member
  | go =>
    rcases List.mem_append.mp member with member | member
    · exact single?_spelled.statements _ _ _ path member
    · obtain ⟨group, -, member⟩ := List.mem_flatMap.mp member
      exact doubleQuoted?_spelled.statements _ _ _ path member
  | python =>
    rw [written, List.mem_append, List.mem_append] at member
    rcases member with (member | member) | member
    · exact fromModule?_spelled.statements _ _ _ path member
    · exact plain?_spelled.statements _ _ _ path member
    · obtain ⟨⟨dots, names⟩, found, member⟩ := List.mem_flatMap.mp member
      obtain ⟨dotted, listed⟩ := fromPackage?_gives.statements _ _ _ _ found
      exact siblings_spelled dotted listed path member
  | swift | kotlin | java | unknown => cases member

end Imports

/-! ## Exports -/

namespace Exports

private theorem typeName?_capitalised : Gives Capitalised (typeName? Text.isWord) :=
  typeName?_gives fun _ => .inl

private theorem declaration?_capitalised (modifiers kinds : List String) :
    Gives Capitalised (declaration? modifiers kinds) :=
  (typeName?_capitalised.bind _).comp _

private theorem script?_capitalised : Gives Capitalised script? := by
  have named : Gives Capitalised (typeName? inScriptName) := by
    apply typeName?_gives
    intro c named
    simpa [inScriptName] using named
  apply Gives.bind
  exact (named.bind _).comp _

private theorem pub?_capitalised : Gives Capitalised pub? := by
  apply Gives.bind
  exact (typeName?_capitalised.bind _).comp _

private theorem written_capitalised (language : Language) (text : List Char) (quoted : List Bool) :
    ∀ name ∈ written language text quoted, Capitalised name := by
  cases language with
  | javascript | typescript => exact script?_capitalised.statements _ _ _
  | rust => exact pub?_capitalised.statements _ _ _
  | go => exact (declaration?_capitalised _ _).statements _ _ _
  | swift => exact ((declaration?_capitalised _ _).bind _).statements _ _ _
  | kotlin => exact ((declaration?_capitalised _ _).comp _).statements _ _ _
  | java => exact ((declaration?_capitalised _ _).bind _).statements _ _ _
  | python => exact (typeName?_capitalised.bind _).statements _ _ _
  | unknown => exact nofun

end Exports

end Source

/-! ## Records -/

namespace SourceRecord

open Source

section Members

variable {language : Language} {found : List Token} {x : String}

/-- The imports of a record are what is written in its language, trimmed, as far as it is relative. -/
theorem mem_imports_iff : x ∈ (ofTokens language found).imports ↔
    (∃ raw ∈ Imports.written language (found.flatMap Token.kept) (quotation found), x.toList = Text.trim raw) ∧
      language.isRelative x.toList := by
  rw [ofTokens]
  dsimp only
  rw [Text.distinct_eq_eraseDups, List.mem_eraseDups]
  constructor
  · intro member
    obtain ⟨cs, kept, rfl⟩ := List.mem_map.mp member
    obtain ⟨trimmed, relative⟩ := List.mem_filter.mp kept
    obtain ⟨raw, isWritten, rfl⟩ := List.mem_map.mp trimmed
    rw [String.toList_ofList]
    exact ⟨⟨raw, isWritten, rfl⟩, relative⟩
  · rintro ⟨⟨raw, isWritten, same⟩, relative⟩
    rw [same] at relative
    have kept := List.mem_filter.mpr ⟨List.mem_map_of_mem isWritten, relative⟩
    rw [← String.ofList_toList (s := x), same]
    exact List.mem_map_of_mem kept

private theorem mem_exports_iff : x ∈ (ofTokens language found).exports ↔
    x.toList ∈ Exports.written language (found.flatMap Token.kept) (quotation found) := by
  rw [ofTokens]
  dsimp only
  rw [Text.distinct_eq_eraseDups, List.mem_eraseDups, List.mem_map]
  constructor
  · rintro ⟨cs, isWritten, rfl⟩
    rwa [String.toList_ofList]
  · intro isWritten
    exact ⟨x.toList, isWritten, String.ofList_toList⟩

end Members

private theorem ofTokens_wellFormed (language : Language) (found : List Token) :
    (ofTokens language found).WellFormed := by
  constructor
  case relative =>
    intro path member
    exact (mem_imports_iff.mp member).2
  case trimmed =>
    intro path member
    obtain ⟨⟨raw, -, same⟩, -⟩ := mem_imports_iff.mp member
    rw [same]
    exact Text.trim_trimmed raw
  case spelled =>
    intro path member c inside
    obtain ⟨⟨raw, isWritten, same⟩, -⟩ := mem_imports_iff.mp member
    rw [same] at inside
    exact Imports.written_spelled language _ _ raw isWritten c (Text.mem_of_mem_trim inside)
  case rooted =>
    rintro rust path member
    obtain ⟨-, relative⟩ := mem_imports_iff.mp member
    obtain rfl : language = .rust := rust
    simpa [Language.isRelative, List.isPrefixOf_iff_prefix, or_assoc] using relative
  case dotted =>
    rintro python path member
    obtain ⟨-, relative⟩ := mem_imports_iff.mp member
    obtain rfl : language = .python := python
    exact List.isPrefixOf_iff_prefix.mp relative
  case foreign =>
    intro absent
    apply List.eq_nil_iff_forall_not_mem.mpr
    intro path member
    obtain ⟨-, relative⟩ := mem_imports_iff.mp member
    cases language with
    | javascript | typescript | rust | go | python => cases absent
    | swift | kotlin | java | unknown => cases relative
  case exports =>
    intro name member
    exact Exports.written_capitalised language _ _ _ (mem_exports_iff.mp member)

private theorem empty_wellFormed (language : Language) : WellFormed ⟨language, [], []⟩ := by
  constructor
  case foreign => exact fun _ => rfl
  case rooted | dotted =>
    intro _ path member
    cases member
  case relative | trimmed | spelled | exports =>
    intro path member
    cases member

/-- Whatever is read, the record is well-formed. -/
theorem parse_wellFormed (path content : String) :
    (parse path content).language = Language.ofPath path ∧ (parse path content).WellFormed := by
  unfold parse
  dsimp only
  generalize Language.ofPath path = language
  cases language.commentStyle? with
  | none => exact ⟨rfl, empty_wellFormed language⟩
  | some style => exact ⟨rfl, ofTokens_wellFormed language _⟩

end SourceRecord

end ReviewContext
