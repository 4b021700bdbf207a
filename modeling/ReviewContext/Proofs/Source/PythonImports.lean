import ReviewContext.Proofs.Source.Python
import ReviewContext.Proofs.Source.ScriptImports
import ReviewContext.Proofs.Source.WellFormed

/-! # What a module imports

On the line of an import each reader finds what the form of the line names, or nothing, and it looks at no other line.
So a module imports the places in the repository that its lines name: a module behind dots, or a package and the
siblings that are taken from it.
-/

namespace ReviewContext.Source.Python

/-! ## Reading a statement -/

section Pieces

variable {p : Char → Bool} {cs rest : List Char}

private theorem gap?_space (solid : cs.head?.all (!Text.isBlank ·)) : gap? (' ' :: cs) = some cs :=
  congrArg some (Text.dropWhile_of_head solid)

private theorem run?_stop {run : List Char} {c : Char} (nonempty : run ≠ []) (inside : ∀ d ∈ run, p d)
    (outside : ¬ p c) :
    run? p (run ++ c :: rest) = some (run, c :: rest) := by
  rw [run?_eq, List.takeWhile_append_of_pos inside, List.takeWhile_cons_of_neg outside, List.append_nil,
    List.dropWhile_append_of_pos inside, List.dropWhile_cons_of_neg outside, if_neg nonempty]

private theorem run?_of_outside {c : Char} (outside : ¬ p c) : run? p (c :: cs) = none := by
  rw [run?_eq, List.takeWhile_cons_of_neg outside, if_pos rfl]

private theorem inlineGap?_space {c : Char} (solid : ¬ Imports.isSpaceOrTab c) :
    Imports.inlineGap? (' ' :: c :: cs) = some (c :: cs) := by
  have run : run? Imports.isSpaceOrTab ([' '] ++ c :: cs) = some ([' '], c :: cs) :=
    run?_stop (List.cons_ne_nil _ _) (List.forall_mem_singleton.mpr (by decide)) solid
  exact congrArg (Option.map (·.2)) run

private theorem not_isSpaceOrTab_of_isWord {c : Char} (word : Text.isWord c) : ¬ Imports.isSpaceOrTab c := by
  intro inline
  have blank := Imports.isBlank_of_isSpaceOrTab inline
  rw [Text.not_isBlank_of_isWord word] at blank
  cases blank

end Pieces

private theorem inDottedName_dotted (dots : Nat) : ∀ c ∈ dotted dots, Imports.inDottedName c := by
  intro c member
  rw [List.eq_of_mem_replicate member]
  decide

private theorem inDottedName_of_isWord {c : Char} (word : Text.isWord c) : Imports.inDottedName c := by
  rw [Imports.inDottedName, word]
  rfl

private theorem Module.inDottedName (module : Module) : ∀ c ∈ module.text, Imports.inDottedName c :=
  module.forall (fun _ => inDottedName_of_isWord) (by decide)

private theorem Listing.inSiblings (listing : Listing) : ∀ c ∈ listing.text, Imports.inSiblings c := by
  have word : ∀ c, Text.isWord c → Imports.inSiblings c := by
    intro c word
    rw [Imports.inSiblings, word]
    rfl
  exact listing.forall word (by decide) (by decide)

private theorem not_isBlank_of_inDottedName {c : Char} (dotted : Imports.inDottedName c) : Text.isBlank c = false := by
  rcases (Bool.or_eq_true ..).mp dotted with word | dot
  · exact Text.not_isBlank_of_isWord word
  · rw [beq_iff_eq.mp dot]
    decide

private theorem module_ne_nil (module : Module) : module.text ≠ [] := by
  obtain ⟨c, cs, shape, -⟩ := module.exists_cons
  rw [shape]
  exact List.cons_ne_nil c cs

private theorem listing_ne_nil (listing : Listing) : listing.text ≠ [] := by
  obtain ⟨c, cs, shape, -⟩ := listing.exists_cons
  rw [shape]
  exact List.cons_ne_nil c cs

section Readers

variable {path : List Char} (dotted : ∀ c ∈ path, Imports.inDottedName c) (nonempty : path ≠ [])
include dotted nonempty

private theorem head?_path (rest : List Char) : (path ++ rest).head?.all (!Text.isBlank ·) := by
  obtain ⟨c, cs, rfl⟩ := List.exists_cons_of_ne_nil nonempty
  rw [List.cons_append, List.head?_cons, Option.all_some,
    not_isBlank_of_inDottedName (dotted c List.mem_cons_self)]
  rfl

private theorem fromModule?_path (rest : List Char) :
    Imports.fromModule? ("from ".toList ++ (path ++ (" import ".toList ++ rest))) = some (path, ' ' :: rest) := by
  have opened : (keyword? "from" ("from ".toList ++ (path ++ (" import ".toList ++ rest))) >>= gap?) =
      some (path ++ (" import ".toList ++ rest)) := gap?_space (head?_path dotted nonempty _)
  have run : run? Imports.inDottedName (path ++ (" import ".toList ++ rest)) = some (path, " import ".toList ++ rest) :=
    run?_stop nonempty dotted (by decide)
  rw [Imports.fromModule?_eq]
  dsimp only
  rw [opened]
  change (run? Imports.inDottedName (path ++ (" import ".toList ++ rest))).bind _ = _
  rw [run]
  rfl

private theorem plain?_path (rest : List Char) :
    Imports.plain? ("import ".toList ++ (path ++ '\n' :: rest)) = some (path, '\n' :: rest) := by
  have opened : (keyword? "import" ("import ".toList ++ (path ++ '\n' :: rest)) >>= gap?) =
      some (path ++ '\n' :: rest) := gap?_space (head?_path dotted nonempty _)
  unfold Imports.plain?
  rw [opened]
  exact run?_stop nonempty dotted (by decide)

end Readers

private theorem inlineGap?_of_isWord {c : Char} (word : Text.isWord c) (cs : List Char) :
    Imports.inlineGap? (c :: cs) = none := by
  rw [Imports.inlineGap?, run?_of_outside (not_isSpaceOrTab_of_isWord word)]
  rfl

/-- The keyword and the dots of a list of siblings. -/
theorem dots_eq {dots : Nat} (present : 0 < dots) {c : Char} (other : c ≠ '.') (rest : List Char) :
    ((keyword? "from" ("from ".toList ++ (dotted dots ++ c :: rest)) >>= Imports.inlineGap?) >>= run? (· == '.')) =
      some (dotted dots, c :: rest) := by
  obtain ⟨more, rfl⟩ := Nat.exists_eq_succ_of_ne_zero (Nat.ne_of_gt present)
  have shape : dotted (more + 1) = '.' :: dotted more := List.replicate_succ
  have opened : (keyword? "from" ("from ".toList ++ (dotted (more + 1) ++ c :: rest)) >>= Imports.inlineGap?) =
      some (dotted (more + 1) ++ c :: rest) := by
    rw [shape]
    exact inlineGap?_space (by decide)
  rw [opened]
  change run? (· == '.') (dotted (more + 1) ++ c :: rest) = _
  apply run?_stop
  · rw [shape]
    exact List.cons_ne_nil _ _
  · intro d member
    rw [List.eq_of_mem_replicate member]
    rfl
  · simpa using other

private theorem listing?_text (listing : Listing) (rest : List Char) :
    Imports.listing? (" import ".toList ++ (listing.text ++ '\n' :: rest)) = some (listing.text, '\n' :: rest) := by
  have run : run? Imports.inSiblings (listing.text ++ '\n' :: rest) = some (listing.text, '\n' :: rest) :=
    run?_stop (listing_ne_nil listing) listing.inSiblings (by decide)
  obtain ⟨c, cs, shape, word⟩ := listing.exists_cons
  have opened : (Imports.inlineGap? (" import ".toList ++ (listing.text ++ '\n' :: rest)) >>= keyword? "import" >>=
      Imports.inlineGap?) = some (listing.text ++ '\n' :: rest) := by
    rw [shape]
    exact inlineGap?_space (not_isSpaceOrTab_of_isWord word)
  rw [Imports.listing?, opened]
  exact run

private theorem fromPackage?_listing {dots : Nat} (present : 0 < dots) (listing : Listing) (rest : List Char) :
    Imports.fromPackage? ("from ".toList ++ (dotted dots ++ (" import ".toList ++ (listing.text ++ '\n' :: rest)))) =
      some ((dotted dots, listing.text), '\n' :: rest) := by
  have opened := dots_eq present (by decide : ' ' ≠ '.') ("import ".toList ++ (listing.text ++ '\n' :: rest))
  have listed : Imports.siblingList?
      ("from ".toList ++ (dotted dots ++ ' ' :: ("import ".toList ++ (listing.text ++ '\n' :: rest)))) =
        some ((dotted dots, listing.text), '\n' :: rest) := by
    unfold Imports.siblingList?
    rw [opened]
    exact congrArg (Option.map _) (listing?_text listing rest)
  rw [Imports.fromPackage?_eq]
  exact congrArg (Option.filter _) listed

private theorem dot_ne_of_isWord {c : Char} (word : Text.isWord c) : c ≠ '.' := by
  rintro rfl
  exact absurd word (by decide)

private theorem fromPackage?_module (dots : Nat) (module : Module) (rest : List Char) :
    Imports.fromPackage? ("from ".toList ++ (dotted dots ++ (module.text ++ rest))) = none := by
  obtain ⟨c, cs, shape, word⟩ := module.exists_cons
  have listed : Imports.siblingList? ("from ".toList ++ (dotted dots ++ (module.text ++ rest))) = none := by
    unfold Imports.siblingList?
    rw [shape, List.cons_append]
    cases dots with
    | zero =>
      have opened : (keyword? "from" ("from ".toList ++ (dotted 0 ++ c :: (cs ++ rest))) >>= Imports.inlineGap?) =
          some (c :: (cs ++ rest)) := inlineGap?_space (not_isSpaceOrTab_of_isWord word)
      have nothing : run? (· == '.') (c :: (cs ++ rest)) = none :=
        run?_of_outside (by simpa using dot_ne_of_isWord word)
      rw [opened, Option.bind_eq_bind, Option.bind_some, nothing]
      rfl
    | succ more =>
      have nothing : Imports.listing? (c :: (cs ++ rest)) = none := by
        rw [Imports.listing?, inlineGap?_of_isWord word]
        rfl
      rw [dots_eq (Nat.succ_pos more) (dot_ne_of_isWord word), Option.bind_some, nothing]
      rfl
  rw [Imports.fromPackage?_eq]
  dsimp only
  rw [listed]
  rfl

private theorem dotted_ne_nil {dots : Nat} (present : 0 < dots) : dotted dots ≠ [] := by
  rw [dotted, ne_eq, List.replicate_eq_nil_iff]
  omega

/-- A reader finds nothing where its keyword does not start. -/
theorem Form.not_read {α : Type} {read : Reader α} {initial : Char} (form : Form) (other : form.initial ≠ initial)
    (starts : ∀ {c} (cs : List Char), c ≠ initial → read (c :: cs) = none) (rest : List Char) :
    read (form.text ++ rest) = none := by
  obtain ⟨cs, shape⟩ := form.exists_cons
  rw [shape, List.cons_append]
  exact starts _ other

section Keywords

variable {c : Char} (cs : List Char)

private theorem fromModule?_of_other (other : c ≠ 'f') : Imports.fromModule? (c :: cs) = none := by
  have missing : keyword? "from" (c :: cs) = none := Script.keyword?_of_other rfl other cs
  unfold Imports.fromModule?
  rw [missing]
  rfl

private theorem plain?_of_other (other : c ≠ 'i') : Imports.plain? (c :: cs) = none := by
  have missing : keyword? "import" (c :: cs) = none := Script.keyword?_of_other rfl other cs
  unfold Imports.plain?
  rw [missing]
  rfl

private theorem fromPackage?_of_other (other : c ≠ 'f') : Imports.fromPackage? (c :: cs) = none := by
  have missing : keyword? "from" (c :: cs) = none := Script.keyword?_of_other rfl other cs
  unfold Imports.fromPackage?
  rw [missing]
  rfl

end Keywords

/-! ## Searching the lines -/

/-- The statement of a line. -/
def Line.form? : Line → Option Form
  | statement form => some form
  | comment .. | prose .. => none

/-- The statements of a module. -/
def forms (lines : List Line) : List Form :=
  lines.filterMap Line.form?

private theorem mem_forms {lines : List Line} {form : Form} : form ∈ forms lines ↔ .statement form ∈ lines := by
  rw [forms, List.mem_filterMap]
  constructor
  · rintro ⟨line, member, shape⟩
    cases line with
    | statement other =>
      obtain rfl := Option.some.inj shape
      exact member
    | comment | prose => cases shape
  · intro member
    exact ⟨_, member, rfl⟩

/-- What a reader that looks at the start of a line finds there; it also tells what is left of the line. -/
structure Reads {α : Type} (indent : Char → Bool) (read : Reader α) (found : Form → Option (α × List Char)) :
    Prop where
  solid : ∀ c ∈ ['f', 'i'], indent c = false
  passes : ∀ cs, read ('\n' :: cs) = none
  reads : ∀ (form : Form) rest,
    read (form.text ++ '\n' :: rest) = (found form).map (Prod.map id (· ++ '\n' :: rest))

section Search

open Token

variable {α : Type} {indent : Char → Bool} {read : Reader α} {found : Form → Option (α × List Char)}
  (reads : Reads indent read found)
include reads

private theorem Reads.newline (opens mark : Bool) (cs : List Char) (marks : List Bool) :
    statementsFrom (.line indent) read opens 0 ('\n' :: cs) (mark :: marks) =
      statementsFrom (.line indent) read true 0 cs marks := by
  have passed : (if opens then read ('\n' :: cs) else none) = none := by
    rw [reads.passes]
    split <;> rfl
  rw [statementsFrom_passed passed]
  rfl

private theorem Reads.newlines (n : Nat) (cs : List Char) (marks : List Bool) :
    statementsFrom (.line indent) read true 0 (List.replicate n '\n' ++ cs) (List.replicate n false ++ marks) =
      statementsFrom (.line indent) read true 0 cs marks := by
  induction n with
  | zero => rfl
  | succ n ih =>
    rw [List.replicate_succ, List.replicate_succ, List.cons_append, List.cons_append, reads.newline, ih]

/-- A reader finds on a line what the form of the line lets it find, and the next line is as new. -/
theorem Reads.line (line : Line) (rest : List Char) (marks : List Bool) :
    statementsFrom (.line indent) read true 0 (line.tokens.flatMap kept ++ '\n' :: rest)
        (quotation line.tokens ++ false :: marks) =
      (line.form?.bind fun form => (found form).map (·.1)).toList ++
        statementsFrom (.line indent) read true 0 rest marks := by
  cases line with
  | statement form =>
    obtain ⟨cs, shape⟩ := form.exists_cons
    have inLine := form.inLine
    have read_eq := reads.reads form rest
    rw [Line.tokens, Script.kept_code, Script.quotation_code, shape, List.length_cons, List.replicate_succ]
    rw [shape] at inLine read_eq
    have solid := reads.solid form.initial form.initial_mem
    have same : (List.replicate cs.length false).length = cs.length := List.length_replicate
    have line := Script.statementsFrom_line solid inLine same read_eq (false :: marks)
    rw [reads.newline] at line
    exact line
  | comment text inLine =>
    have kept_eq : (Token.lineComment ('#' :: text)).kept = [] :=
      congrArg Prod.fst (left_lineComment style_regular inLine)
    rw [Line.tokens, List.flatMap_singleton, quotation_cons, kept_eq]
    exact reads.newline true false rest marks
  | prose mark text unquoted =>
    rw [Line.tokens, List.flatMap_singleton, quotation_cons, kept, newlines_eq_replicate, List.length_replicate,
      quotation, List.flatMap_nil, List.append_nil]
    exact (reads.newlines _ _ _).trans (reads.newline true false rest marks)

/-- A reader finds in a module what the statements let it find, one after the other. -/
theorem Reads.statements_eq (lines : List Line) :
    statements (.line indent) read ((sourceTokens lines).flatMap kept) (quotation (sourceTokens lines)) =
      (forms lines).filterMap fun form => (found form).map (·.1) := by
  induction lines with
  | nil => rfl
  | cons line lines ih =>
    have step := reads.line line ((sourceTokens lines).flatMap kept) (quotation (sourceTokens lines))
    unfold statements at ih ⊢
    rw [ih, forms, List.filterMap_filterMap] at step
    rw [sourceTokens_cons, List.flatMap_append, Script.quotation_append, forms, List.filterMap_filterMap,
      List.filterMap_cons]
    refine step.trans ?_
    cases line.form?.bind fun form => (found form).map (·.1) with
    | none => rfl
    | some name => rfl

end Search

/-! ## What a form names -/

namespace Form

/-- What the reader of modules finds, and what it leaves of the line. -/
def module? : Form → Option (List Char × List Char)
  | fromModule dots module listing => some (dotted dots ++ module.text, ' ' :: listing.text)
  | fromPackage dots _ listing => some (dotted dots, ' ' :: listing.text)
  | plain _ => none

/-- What the reader of `import` finds. -/
def plain? : Form → Option (List Char × List Char)
  | plain module => some (module.text, [])
  | fromModule .. | fromPackage .. => none

/-- What the reader of siblings finds. -/
def package? : Form → Option ((List Char × List Char) × List Char)
  | fromPackage dots _ listing => some ((dotted dots, listing.text), [])
  | fromModule .. | plain _ => none

end Form

private theorem fromModule?_reads : Reads Text.isBlank Imports.fromModule? Form.module? where
  solid := Script.forall_of_all (by decide)
  passes cs := fromModule?_of_other cs (by decide)
  reads form rest := by
    cases form with
    | fromModule dots module listing =>
      have path : ∀ c ∈ dotted dots ++ module.text, Imports.inDottedName c :=
        List.forall_mem_append.mpr ⟨inDottedName_dotted dots, module.inDottedName⟩
      have nonempty : dotted dots ++ module.text ≠ [] := List.append_ne_nil_of_right_ne_nil _ (module_ne_nil module)
      rw [Form.line_fromModule, fromModule?_path path nonempty]
      rfl
    | fromPackage dots present listing =>
      rw [Form.line_fromPackage, fromModule?_path (inDottedName_dotted dots) (dotted_ne_nil present)]
      rfl
    | plain module => exact Form.not_read (.plain module) (by decide : 'i' ≠ 'f') fromModule?_of_other _

private theorem plain?_reads : Reads Text.isBlank Imports.plain? Form.plain? where
  solid := Script.forall_of_all (by decide)
  passes cs := plain?_of_other cs (by decide)
  reads form rest := by
    cases form with
    | fromModule dots module listing =>
      exact Form.not_read (.fromModule dots module listing) (by decide : 'f' ≠ 'i') plain?_of_other _
    | fromPackage dots present listing =>
      exact Form.not_read (.fromPackage dots present listing) (by decide : 'f' ≠ 'i') plain?_of_other _
    | plain module =>
      rw [Form.line_plain, plain?_path module.inDottedName (module_ne_nil module)]
      rfl

private theorem fromPackage?_reads : Reads Imports.isSpaceOrTab Imports.fromPackage? Form.package? where
  solid := Script.forall_of_all (by decide)
  passes cs := fromPackage?_of_other cs (by decide)
  reads form rest := by
    cases form with
    | fromModule dots module listing =>
      rw [Form.line_fromModule, List.append_assoc]
      exact fromPackage?_module dots module _
    | fromPackage dots present listing =>
      rw [Form.line_fromPackage, fromPackage?_listing present]
      rfl
    | plain module => exact Form.not_read (.plain module) (by decide : 'i' ≠ 'f') fromPackage?_of_other _

/-! ## Siblings -/

private theorem words_item (item : Item) : (Text.words item.text).head? = some item.name.text := by
  have solid : ∀ c ∈ item.name.text, Text.isBlank c = false :=
    item.name.forall fun _ => Text.not_isBlank_of_isWord
  unfold Item.text
  cases item.renamed with
  | none => rw [Option.elim_none, List.append_nil, Text.words_of_solid item.name.nonempty solid, List.head?_cons]
  | some other =>
    have words := Text.words_append item.name.nonempty solid (by decide : Text.isBlank ' ' = true)
      ("as ".toList ++ other.text)
    exact congrArg List.head? words

/-- A name may stand behind a blank. -/
theorem words_spaced_item (item : Item) : (Text.words (' ' :: item.text)).head? = some item.name.text := by
  rw [Text.words_blank (by decide), words_item]

private theorem Item.solid (item : Item) : ∀ c ∈ item.text, (c == ',') = false := by
  have word : ∀ c, Text.isWord c → (c == ',') = false := by
    intro c word
    rw [beq_eq_false_iff_ne]
    rintro rfl
    exact absurd word (by decide)
  exact item.forall word (by decide)

private theorem splitOn_items (first : Item) (rest : List Item) :
    Text.splitOn ',' (first.text ++ rest.flatMap fun item => ", ".toList ++ item.text) =
      first.text :: rest.map fun item => ' ' :: item.text := by
  have spaced (item : Item) : ∀ c ∈ ' ' :: item.text, (c == ',') = false :=
    List.forall_mem_cons.mpr ⟨by decide, item.solid⟩
  -- Behind a comma the blank belongs to the piece, so the induction is over the pieces behind any first one.
  have pieces (piece : List Char) (solid : ∀ c ∈ piece, (c == ',') = false) :
      Text.splitOn ',' (piece ++ rest.flatMap fun item => ", ".toList ++ item.text) =
        piece :: rest.map fun item => ' ' :: item.text := by
    induction rest generalizing piece with
    | nil =>
      rw [List.flatMap_nil, List.append_nil]
      exact Text.splitBy_of_solid solid
    | cons item rest ih =>
      have later := ih (' ' :: item.text) (spaced item)
      rw [List.flatMap_cons, List.map_cons, ← later]
      exact Text.splitBy_append solid rfl _
  exact pieces first.text first.solid

private theorem siblings_text (dots : List Char) (listing : Listing) :
    Imports.siblings dots listing.text = listing.items.map (dots ++ ·.name.text) := by
  have later : listing.rest.filterMap (fun item => (Text.words (' ' :: item.text)).head?.map (dots ++ ·)) =
      listing.rest.map (dots ++ ·.name.text) := by
    simp only [words_spaced_item, Option.map_some]
    rw [List.filterMap_eq_map']
  unfold Imports.siblings Listing.text
  rw [splitOn_items, List.filterMap_cons, words_item, List.filterMap_map]
  exact congrArg (_ :: ·) later

/-! ## The imports of a module -/

/-- The modules that a line names, those from elsewhere too. -/
def Form.named : Form → List (List Char)
  | fromModule dots module _ => [dotted dots ++ module.text]
  | fromPackage dots _ listing => dotted dots :: listing.items.map (dotted dots ++ ·.name.text)
  | plain module => [module.text]

/-- Each form is read by the readers that look for it. -/
theorem Form.mem_named {form : Form} {path : List Char} : path ∈ form.named ↔
    form.module?.map (·.1) = some path ∨ form.plain?.map (·.1) = some path ∨
      ∃ found, form.package?.map (·.1) = some found ∧ path ∈ Imports.siblings found.1 found.2 := by
  cases form with
  | fromModule dots module listing => simp [named, module?, plain?, package?, eq_comm]
  | fromPackage dots present listing =>
    simp only [named, module?, plain?, package?, Option.map_some, Option.map_none, Option.some_inj, List.mem_cons,
      exists_eq_left', siblings_text, reduceCtorEq, false_or]
    rw [eq_comm]
  | plain module => simp [named, module?, plain?, package?, eq_comm]

private theorem mem_written {lines : List Line} {path : List Char} :
    path ∈ Imports.written .python ((sourceTokens lines).flatMap Token.kept) (quotation (sourceTokens lines)) ↔
      ∃ form, .statement form ∈ lines ∧ path ∈ form.named := by
  change path ∈ statements (.line Text.isBlank) Imports.fromModule? _ _ ++
    statements (.line Text.isBlank) Imports.plain? _ _ ++
      (statements (.line Imports.isSpaceOrTab) Imports.fromPackage? _ _).flatMap
        (fun found => Imports.siblings found.1 found.2) ↔ _
  rw [fromModule?_reads.statements_eq, plain?_reads.statements_eq, fromPackage?_reads.statements_eq]
  simp only [List.mem_append, List.mem_flatMap, List.mem_filterMap, mem_forms, Form.mem_named]
  constructor
  · rintro ((⟨form, member, read⟩ | ⟨form, member, read⟩) | ⟨found, ⟨form, member, read⟩, named⟩)
    · exact ⟨form, member, .inl read⟩
    · exact ⟨form, member, .inr (.inl read)⟩
    · exact ⟨form, member, .inr (.inr ⟨found, read, named⟩)⟩
  · rintro ⟨form, member, read | read | ⟨found, read, named⟩⟩
    · exact .inl (.inl ⟨form, member, read⟩)
    · exact .inl (.inr ⟨form, member, read⟩)
    · exact .inr ⟨found, ⟨form, member, read⟩, named⟩

private theorem isRelative_dotted {dots : Nat} (present : 0 < dots) (rest : List Char) :
    Language.python.isRelative (dotted dots ++ rest) = true := by
  obtain ⟨more, rfl⟩ := Nat.exists_eq_succ_of_ne_zero (Nat.ne_of_gt present)
  rw [dotted, List.replicate_succ]
  rfl

private theorem not_isRelative_module (module : Module) : ¬ Language.python.isRelative module.text := by
  obtain ⟨c, cs, shape, word⟩ := module.exists_cons
  rw [shape]
  simp [Language.isRelative, (dot_ne_of_isWord word).symm]

/-- Of what a line names it imports what is in the repository. -/
theorem Form.imports_eq_filter (form : Form) : form.imports = form.named.filter Language.python.isRelative := by
  cases form with
  | fromModule dots module listing =>
    cases dots with
    | zero =>
      have outside : ¬ Language.python.isRelative (dotted 0 ++ module.text) := not_isRelative_module module
      rw [imports, if_pos rfl, named, List.filter_cons_of_neg outside, List.filter_nil]
    | succ more =>
      have inside := isRelative_dotted (Nat.succ_pos more) module.text
      rw [imports, if_neg (Nat.succ_ne_zero more), named, List.filter_cons_of_pos inside, List.filter_nil]
  | fromPackage dots present listing =>
    have package : Language.python.isRelative (dotted dots) = true := by
      rw [← List.append_nil (dotted dots)]
      exact isRelative_dotted present []
    refine (List.filter_eq_self.mpr (List.forall_mem_cons.mpr ⟨package, ?_⟩)).symm
    exact List.forall_mem_map.mpr fun item _ => isRelative_dotted present item.name.text
  | plain module => rw [imports, named, List.filter_cons_of_neg (not_isRelative_module module), List.filter_nil]

private theorem Form.solid {form : Form} {path : List Char} (named : path ∈ form.named) :
    ∀ c ∈ path, Text.isBlank c = false := by
  have dots (dots : Nat) : ∀ c ∈ dotted dots, Text.isBlank c = false :=
    fun c member => not_isBlank_of_inDottedName (inDottedName_dotted dots c member)
  have modules (module : Module) : ∀ c ∈ module.text, Text.isBlank c = false :=
    fun c member => not_isBlank_of_inDottedName (module.inDottedName c member)
  have names (name : Name) : ∀ c ∈ name.text, Text.isBlank c = false :=
    name.forall fun _ => Text.not_isBlank_of_isWord
  cases form with
  | fromModule up module listing =>
    obtain rfl := List.mem_singleton.mp named
    exact List.forall_mem_append.mpr ⟨dots up, modules module⟩
  | fromPackage up present listing =>
    rcases List.mem_cons.mp named with rfl | sibling
    · exact dots up
    · obtain ⟨item, -, rfl⟩ := List.mem_map.mp sibling
      exact List.forall_mem_append.mpr ⟨dots up, names item.name⟩
  | plain module =>
    obtain rfl := List.mem_singleton.mp named
    exact modules module

private theorem Line.mem_imports {lines : List Line} {path : List Char} : (∃ line ∈ lines, path ∈ line.imports) ↔
    ∃ form, .statement form ∈ lines ∧ path ∈ form.imports := by
  constructor
  · rintro ⟨line, member, inside⟩
    cases line with
    | statement form => exact ⟨form, member, inside⟩
    | comment | prose => cases inside
  · rintro ⟨form, member, inside⟩
    exact ⟨_, member, inside⟩

/-- A module imports the places in the repository that its lines name, and nothing else. -/
theorem imports_of_module (path : String) (python : Language.ofPath path = .python) (lines : List Line) (x : String) :
    x ∈ (SourceRecord.parse path (String.ofList (source lines))).imports ↔
      ∃ line ∈ lines, x.toList ∈ line.imports := by
  have cut_eq : tokens style (source lines) = sourceTokens lines := cut_source lines []
  have trim_named {form : Form} {path : List Char} (named : path ∈ form.named) : Text.trim path = path :=
    Text.trim_of_trimmed (Text.trimmed_of_solid (Form.solid named))
  rw [parse_eq (style_known python), cut_eq, python, SourceRecord.mem_imports_iff, Line.mem_imports]
  simp only [mem_written, Form.imports_eq_filter, List.mem_filter]
  constructor
  · rintro ⟨⟨raw, ⟨form, member, named⟩, same⟩, relative⟩
    rw [trim_named named] at same
    exact ⟨form, member, same ▸ named, relative⟩
  · rintro ⟨form, member, named, relative⟩
    exact ⟨⟨x.toList, ⟨form, member, named⟩, (trim_named named).symm⟩, relative⟩

/-- A module with statements of each form, a comment and a text that look like statements. -/
def mixedModule : List Line :=
  let x : Name := ⟨['x'], List.cons_ne_nil _ _, Script.forall_of_all (by decide)⟩
  let y : Name := ⟨['y'], List.cons_ne_nil _ _, Script.forall_of_all (by decide)⟩
  let os : Name := ⟨"os".toList, List.cons_ne_nil _ _, Script.forall_of_all (by decide)⟩
  let listing : Listing := ⟨⟨x, none⟩, [⟨y, some os⟩]⟩
  [.prose .double "\nfrom .x import y\n".toList (by decide),
    .statement (.plain ⟨os, [x]⟩),
    .statement (.fromModule 0 ⟨os, []⟩ listing),
    .statement (.fromModule 2 ⟨x, [y]⟩ listing),
    .comment " from .y import x".toList (by decide),
    .statement (.fromPackage 1 Nat.one_pos listing)]

/-- Documentation and a comment that hold statements, an absolute module and an import of the standard library give
nothing; the relative statements give their places. -/
theorem imports_of_module_of_page :
    Language.ofPath "a.py" = .python ∧
      (SourceRecord.parse "a.py" (String.ofList (source mixedModule))).imports = ["..x.y", ".", ".x", ".y"] ∧
      ∀ x, x ∈ (SourceRecord.parse "a.py" (String.ofList (source mixedModule))).imports ↔
        ∃ line ∈ mixedModule, x.toList ∈ line.imports := by
  have python : Language.ofPath "a.py" = .python := by decide +kernel
  exact ⟨python, by decide +kernel, imports_of_module "a.py" python mixedModule⟩

end ReviewContext.Source.Python
