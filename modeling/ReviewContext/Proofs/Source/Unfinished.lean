import ReviewContext.Proofs.Source.Literals

/-! # Unfinished statements

A statement in front of a literal, or one that starts in it, can go on behind a quote and take what stands there for
its own. Where none does, the search finds what it finds in front of the literal and what it finds behind it. So what
a literal says makes no difference to what a source imports in Rust, if no import is unfinished at one of its quotes.
-/

namespace ReviewContext.Source

variable {α : Type} {indent : Char → Bool} {read : Reader α} {d : Char}

/-- What is left of a text from each place where a line starts, or goes on behind its indent. -/
def lineStarts (indent : Char → Bool) (opens : Bool) : List Char → List (List Char)
  | [] => if opens then [[]] else []
  | c :: cs =>
    (if opens then [c :: cs] else []) ++ lineStarts indent ((Anchor.line indent).opensAfter opens c) cs

/-- What starts on a later line does so whether or not a statement may start on this one. -/
theorem mem_lineStarts_of_shut {cs part : List Char} (starts : part ∈ lineStarts indent false cs) (opens : Bool) :
    part ∈ lineStarts indent opens cs := by
  induction cs generalizing opens with
  | nil => cases starts
  | cons c cs ih =>
    rw [lineStarts, if_neg Bool.false_ne_true, List.nil_append] at starts
    rw [lineStarts, List.mem_append]
    right
    by_cases newline : c = '\n'
    · subst newline
      exact starts
    · have shut : (Anchor.line indent).opensAfter false c = false := by simp [Anchor.opensAfter, newline]
      rw [shut] at starts
      exact ih starts _

/-- Where no statement that starts on a line of a text goes on behind the text, the search finds those of the text and
then those behind it. -/
theorem statementsFrom_append (nothing : read [] = none) (newline : d ≠ '\n') (solid : indent d = false)
    {cs : List Char} {marks : List Bool} (same : marks.length = cs.length) (opens : Bool) (skip : Nat)
    (stops : ∀ part ∈ lineStarts indent opens cs, StopsAt d read part) (short : skip ≤ cs.length)
    (shut : skip ≠ 0 → opens = false) (rest : List Char) (mark : Bool) (quoted : List Bool) :
    statementsFrom (.line indent) read opens skip (cs ++ d :: rest) (marks ++ mark :: quoted) =
      statementsFrom (.line indent) read opens skip cs marks ++
        statementsFrom (.line indent) read false 0 rest quoted := by
  induction cs generalizing marks opens skip with
  | nil =>
    obtain rfl := Nat.le_zero.mp short
    obtain rfl := List.eq_nil_of_length_eq_zero same
    have passed : (if opens then read (d :: rest) else none) = none := by
      cases opens with
      | false => rfl
      | true =>
        have ended := stops [] List.mem_cons_self rest
        rw [nothing] at ended
        exact ended
    rw [List.nil_append, List.nil_append, statementsFrom_passed passed, opensAfter_eq_false newline solid]
    rfl
  | cons c cs ih =>
    obtain ⟨m, marks, rfl⟩ := List.exists_cons_of_length_eq_add_one same
    have same := Nat.succ.inj same
    have later : ∀ part ∈ lineStarts indent ((Anchor.line indent).opensAfter opens c) cs, StopsAt d read part :=
      fun part starts => stops part (List.mem_append_right _ starts)
    have shutLater : ∀ part ∈ lineStarts indent false cs, StopsAt d read part :=
      fun part starts => later part (mem_lineStarts_of_shut starts _)
    rw [List.cons_append, List.cons_append]
    cases skip with
    | succ skip =>
      obtain rfl := shut (Nat.succ_ne_zero skip)
      rw [statementsFrom, statementsFrom]
      exact ih same false skip shutLater (Nat.le_of_succ_le_succ short) fun _ => rfl
    | zero =>
      cases found : if opens then read (c :: cs) else none with
      | none =>
        have passed : (if opens then read (c :: (cs ++ d :: rest)) else none) = none := by
          cases opens with
          | false => rfl
          | true =>
            have ended := stops (c :: cs) List.mem_cons_self rest
            rw [if_pos rfl] at found
            rw [found] at ended
            exact ended
        rw [statementsFrom_passed passed, statementsFrom_passed found]
        exact ih same _ 0 later (Nat.zero_le _) fun none => absurd rfl none
      | some out =>
        obtain ⟨name, left⟩ := out
        obtain ⟨rfl, taken⟩ := Option.ite_none_right_eq_some.mp found
        have found' : (if true then read (c :: (cs ++ d :: rest)) else none) = some (name, left ++ d :: rest) := by
          have ended := stops (c :: cs) List.mem_cons_self rest
          rw [taken] at ended
          exact ended
        have length : (cs ++ d :: rest).length - (left ++ d :: rest).length = cs.length - left.length := by
          simp only [List.length_append]
          omega
        rw [statementsFrom_found found', statementsFrom_found found, length, List.append_assoc]
        exact congrArg _ (ih same false _ shutLater (Nat.sub_le ..) fun _ => rfl)

/-- No statement of a literal is reported. -/
theorem statementsFrom_quoted {anchor : Anchor} (opens : Bool) (skip : Nat) (cs : List Char) :
    statementsFrom anchor read opens skip cs (List.replicate cs.length true) = [] := by
  induction cs generalizing opens skip with
  | nil => rw [statementsFrom]
  | cons c cs ih =>
    rw [List.length_cons, List.replicate_succ]
    cases skip with
    | succ skip => exact ih opens skip
    | zero =>
      cases found : if opens then read (c :: cs) else none with
      | none =>
        rw [statementsFrom_passed found]
        exact ih _ 0
      | some out =>
        rw [statementsFrom_found found]
        exact ih _ _

/-- The statements of a text with a literal in it, if none is unfinished at one of the quotes. -/
theorem statements_around (nothing : read [] = none) (newline : d ≠ '\n') (solid : indent d = false)
    {text body : List Char} {marks : List Bool} (same : marks.length = text.length)
    (stops : ∀ part ∈ lineStarts indent true text, StopsAt d read part)
    (inner : ∀ part ∈ lineStarts indent false body, StopsAt d read part) (rest : List Char) (quoted : List Bool) :
    statements (.line indent) read (around d text body rest) (marksAround marks body quoted) =
      statements (.line indent) read text marks ++ statementsFrom (.line indent) read false 0 rest quoted := by
  have marked : (List.replicate body.length true).length = body.length := List.length_replicate ..
  have enclosed := statementsFrom_append nothing newline solid marked false 0 inner (Nat.zero_le _)
    (fun none => absurd rfl none) rest true quoted
  rw [statementsFrom_quoted, List.nil_append] at enclosed
  unfold statements around marksAround
  rw [statementsFrom_append nothing newline solid same true 0 stops (Nat.zero_le _) (fun none => absurd rfl none)]
  exact congrArg _ enclosed

namespace Imports

/-! ## Imports of Rust -/

/-- Whether the visibility that a text starts with is not closed in it. -/
def unclosedVisibility (cs : List Char) : Bool :=
  match keyword? "pub" cs with
  | some ('(' :: more) => !more.contains ')'
  | _ => false

/-- The keyword of a `use` and what is in front of it. -/
def useOpening? (cs : List Char) : Option (List Char) :=
  keyword? "use" (optional visibility? cs) >>= gap?

/-- Whether the text starts with a `use` of a place in the repository that is not ended in it. -/
def unendedUse (cs : List Char) : Bool :=
  match useOpening? cs with
  | some path => (["self::", "super::", "crate::"].any (·.toList.isPrefixOf path)) && !path.contains ';'
  | none => false

/-- Whether the text starts with an import that only what follows the text can end. -/
def unfinished (cs : List Char) : Bool :=
  unclosedVisibility cs || unendedUse cs

private theorem dropWhile_of_mem {c : Char} {cs : List Char} (member : c ∈ cs) (rest : List Char) :
    (cs ++ rest).dropWhile (· != c) = cs.dropWhile (· != c) ++ rest := by
  rw [List.dropWhile_append, if_neg]
  rw [List.isEmpty_iff, List.dropWhile_eq_nil_iff]
  intro all
  simpa using all c member

private theorem takeWhile_of_mem {c : Char} {cs : List Char} (member : c ∈ cs) (rest : List Char) :
    (cs ++ rest).takeWhile (· != c) = cs.takeWhile (· != c) := by
  rw [List.takeWhile_append, if_neg]
  intro whole
  have all := (List.takeWhile_prefix (· != c)).eq_of_length whole
  rw [List.takeWhile_eq_self_iff] at all
  simpa using all c member

variable {cs : List Char}

private theorem visibility?_append (closed : unclosedVisibility cs = false) (rest : List Char) :
    visibility? (cs ++ '"' :: rest) = (visibility? cs).map (· ++ '"' :: rest) := by
  have gap : EndsAt '"' gap? := gap?_endsAt (by decide)
  have close : EndsAt '"' fun cs => keyword? ")" cs >>= gap? := (keyword?_endsAt (by decide)).bind gap
  have first : keyword? "pub" (cs ++ '"' :: rest) = (keyword? "pub" cs).map (· ++ '"' :: rest) :=
    keyword?_endsAt (by decide) cs rest
  unfold unclosedVisibility at closed
  unfold visibility?
  rw [first]
  cases taken : keyword? "pub" cs with
  | none => rfl
  | some left =>
    rw [taken] at closed
    match left with
    | [] => exact gap [] rest
    | c :: more =>
      by_cases paren : c = '('
      · subst paren
        have member : ')' ∈ more := by simpa using closed
        have inside := close (more.dropWhile (· != ')')) rest
        rw [← dropWhile_of_mem member] at inside
        exact inside
      · have ends := gap (c :: more) rest
        simp only [Option.map_some, Option.bind_eq_bind, Option.bind_some, List.cons_append]
        split
        · next same => exact absurd (List.cons.inj same).1 paren
        · split
          · next same => exact absurd (List.cons.inj same).1 paren
          · exact ends

private theorem optional_visibility?_append (closed : unclosedVisibility cs = false) (rest : List Char) :
    optional visibility? (cs ++ '"' :: rest) = optional visibility? cs ++ '"' :: rest := by
  unfold optional
  rw [visibility?_append closed]
  cases visibility? cs <;> rfl

/-- The path of a `use` and the semicolon behind it. -/
def usePath? : Reader (List Char) := fun cs =>
  (keyword? ";" (cs.dropWhile (· != ';'))).bind fun after =>
    if ["self::", "super::", "crate::"].any fun root =>
        root.toList.isPrefixOf (cs.takeWhile (· != ';')) && root.length < (cs.takeWhile (· != ';')).length
    then some ((cs.takeWhile (· != ';')).filter (!Text.isBlank ·), after)
    else none

theorem use?_eq (cs : List Char) : use? cs = (useOpening? cs).bind usePath? := by
  unfold use? useOpening?
  cases keyword? "use" (optional visibility? cs) >>= gap? with
  | none => rfl
  | some path =>
    change (keyword? ";" (path.dropWhile (· != ';'))).bind _ = (keyword? ";" (path.dropWhile (· != ';'))).bind _
    rfl

private theorem usePath?_stopsAt (ended : ';' ∈ cs ∨
    ∀ root ∈ ["self::", "super::", "crate::"], ¬ root.toList.isPrefixOf cs) : StopsAt '"' usePath? cs := by
  intro rest
  by_cases member : ';' ∈ cs
  · have ends : EndsAt '"' (keyword? ";") := keyword?_endsAt (by decide)
    have close := ends (cs.dropWhile (· != ';')) rest
    unfold usePath?
    rw [takeWhile_of_mem member, dropWhile_of_mem member, close]
    cases keyword? ";" (cs.dropWhile (· != ';')) with
    | none => rfl
    | some after =>
      simp only [Option.map_some, Option.bind_some]
      split <;> rfl
  · have foreign := ended.resolve_left member
    have solid : ∀ c ∈ cs, (c != ';') = true := by
      intro c inside
      rw [bne_iff_ne]
      rintro rfl
      exact member inside
    have nothing : usePath? cs = none := by
      rw [usePath?, List.dropWhile_eq_nil_iff.mpr solid]
      rfl
    have unquoted : ∀ root ∈ ["self::", "super::", "crate::"], '"' ∉ root.toList := by decide
    have nowhere : ∀ root ∈ ["self::", "super::", "crate::"],
        ¬ root.toList.isPrefixOf ((cs ++ '"' :: rest).takeWhile (· != ';')) := by
      intro root isRoot starts
      obtain ⟨left, whole⟩ := (List.isPrefixOf_iff_prefix.mp starts).trans (List.takeWhile_prefix _)
      have taken := keyword?_eq_some_iff.mpr whole.symm
      rw [keyword?_endsAt (unquoted root isRoot)] at taken
      obtain ⟨after, inside, -⟩ := Option.map_eq_some_iff.mp taken
      have starts : root.toList <+: cs := ⟨after, (keyword?_eq_some_iff.mp inside).symm⟩
      exact foreign root isRoot (List.isPrefixOf_iff_prefix.mpr starts)
    have still : usePath? (cs ++ '"' :: rest) = none := by
      unfold usePath?
      cases keyword? ";" ((cs ++ '"' :: rest).dropWhile (· != ';')) with
      | none => rfl
      | some after =>
        rw [Option.bind_some, if_neg]
        intro some
        obtain ⟨root, isRoot, starts⟩ := List.any_eq_true.mp some
        exact nowhere root isRoot ((Bool.and_eq_true ..).mp starts).1
    rw [still, nothing]
    rfl

private theorem use?_stopsAt (finished : unfinished cs = false) : StopsAt '"' use? cs := by
  obtain ⟨closed, ended⟩ := Bool.or_eq_false_iff.mp finished
  intro rest
  have opening : useOpening? (cs ++ '"' :: rest) = (useOpening? cs).map (· ++ '"' :: rest) := by
    have ends : EndsAt '"' fun cs => keyword? "use" cs >>= gap? :=
      (keyword?_endsAt (by decide)).bind (gap?_endsAt (by decide))
    unfold useOpening?
    rw [optional_visibility?_append closed]
    exact ends _ rest
  rw [use?_eq, use?_eq, opening]
  unfold unendedUse at ended
  cases taken : useOpening? cs with
  | none => rfl
  | some path =>
    rw [taken] at ended
    refine usePath?_stopsAt ?_ rest
    by_cases member : ';' ∈ path
    · exact .inl member
    · right
      intro root isRoot starts
      have foreign : (["self::", "super::", "crate::"].any (·.toList.isPrefixOf path)) = false := by
        simpa [member] using ended
      exact List.any_eq_false.mp foreign root isRoot starts

/-- The name of a `mod` and the semicolon behind it. -/
def modName? : Reader (List Char) := fun cs =>
  (run? Text.isWord cs).bind fun (name, rest) =>
    (keyword? ";" (Text.trimStart rest)).map ("self::".toList ++ name, ·)

/-- The keyword of a `mod` and what is in front of it. -/
def modOpening? (cs : List Char) : Option (List Char) :=
  keyword? "mod" (optional visibility? cs) >>= gap?

theorem mod?_eq (cs : List Char) : mod? cs = (modOpening? cs).bind modName? := by
  unfold mod? modOpening?
  cases keyword? "mod" (optional visibility? cs) >>= gap? with
  | none => rfl
  | some rest =>
    change (run? Text.isWord rest).bind _ = (run? Text.isWord rest).bind _
    cases run? Text.isWord rest with
    | none => rfl
    | some out =>
      obtain ⟨name, rest⟩ := out
      change (keyword? ";" (Text.trimStart rest)).bind _ = (keyword? ";" (Text.trimStart rest)).map _
      cases keyword? ";" (Text.trimStart rest) <;> rfl

private theorem modName?_stopsAt (cs : List Char) : StopsAt '"' modName? cs := by
  intro rest
  have ended : EndsAt '"' (keyword? ";") := keyword?_endsAt (by decide)
  have run : run? Text.isWord (cs ++ '"' :: rest) =
      (run? Text.isWord cs).map (Prod.map id (· ++ '"' :: rest)) := by
    rw [run?_eq, run?_eq, takeWhile_stop (by decide), dropWhile_stop (by decide)]
    split <;> rfl
  unfold modName?
  rw [run]
  cases run? Text.isWord cs with
  | none => rfl
  | some out =>
    obtain ⟨name, left⟩ := out
    have blank : Text.isBlank '"' = false := by decide
    simp only [Option.map_some, Option.bind_some, Prod.map, id, trimStart_stop blank, ended _ rest]
    cases keyword? ";" (Text.trimStart left) <;> rfl

private theorem mod?_stopsAt (finished : unfinished cs = false) : StopsAt '"' mod? cs := by
  obtain ⟨closed, -⟩ := Bool.or_eq_false_iff.mp finished
  intro rest
  have opening : modOpening? (cs ++ '"' :: rest) = (modOpening? cs).map (· ++ '"' :: rest) := by
    have ends : EndsAt '"' fun cs => keyword? "mod" cs >>= gap? :=
      (keyword?_endsAt (by decide)).bind (gap?_endsAt (by decide))
    unfold modOpening?
    rw [optional_visibility?_append closed]
    exact ends _ rest
  rw [mod?_eq, mod?_eq, opening]
  cases modOpening? cs with
  | none => rfl
  | some left => exact modName?_stopsAt left rest

/-- What a literal says makes no difference to the imports of a text in which none is unfinished at a quote of the
literal. -/
theorem written_around {text body other : List Char} {marks : List Bool} (same : marks.length = text.length)
    (finished : ∀ part ∈ lineStarts Text.isBlank true text, unfinished part = false)
    (inner : ∀ part ∈ lineStarts Text.isBlank false body, unfinished part = false)
    (inner_other : ∀ part ∈ lineStarts Text.isBlank false other, unfinished part = false) (rest : List Char)
    (quoted : List Bool) :
    written .rust (around '"' text body rest) (marksAround marks body quoted) =
      written .rust (around '"' text other rest) (marksAround marks other quoted) := by
  have unread {read : Reader (List Char)} (nothing : read [] = none)
      (stops : ∀ {cs}, unfinished cs = false → StopsAt '"' read cs) :
      statements indented read (around '"' text body rest) (marksAround marks body quoted) =
        statements indented read (around '"' text other rest) (marksAround marks other quoted) := by
    have ended := fun part starts => stops (finished part starts)
    have around_body := statements_around nothing (by decide) (by decide) same ended
      (fun part starts => stops (inner part starts)) rest quoted
    have around_other := statements_around nothing (by decide) (by decide) same ended
      (fun part starts => stops (inner_other part starts)) rest quoted
    exact around_body.trans around_other.symm
  have uses := unread (by decide : use? [] = none) use?_stopsAt
  have mods := unread (by decide : mod? [] = none) mod?_stopsAt
  unfold written
  exact congrArg₂ (· ++ ·) uses mods

end Imports

open Token

/-- The comments and literals of Rust. -/
def rustStyle : CommentStyle :=
  ⟨['/', '/'], .nested, ['"'], ['"'], false⟩

private theorem rustStyle_known {path : String} (rust : Language.ofPath path = .rust) :
    (Language.ofPath path).commentStyle? = some rustStyle := by
  rw [rust]
  rfl

/-- What a literal says makes no difference to what a source imports in Rust, if no import in front of it or in it is
unfinished where a quote of the literal stands. -/
theorem finished_imports_kept (path : String) (rust : Language.ofPath path = .rust)
    (text rest body other : List Char) (found : List Token)
    (begun : found <+: tokens rustStyle (text ++ '"' :: (body ++ '"' :: rest)))
    (whole : found.flatMap Token.text = text)
    (single : ¬ ['\''] <:+ text) (escaped : ¬ ['\'', '\\'] <:+ text) (open_ : '"' ∉ body) (plain : '\\' ∉ body)
    (open_other : '"' ∉ other) (plain_other : '\\' ∉ other)
    (finished : ∀ part ∈ lineStarts Text.isBlank true (found.flatMap kept), Imports.unfinished part = false)
    (inner : ∀ part ∈ lineStarts Text.isBlank false body, Imports.unfinished part = false)
    (inner_other : ∀ part ∈ lineStarts Text.isBlank false other, Imports.unfinished part = false) :
    (SourceRecord.parse path (String.ofList (text ++ '"' :: (body ++ '"' :: rest)))).imports =
      (SourceRecord.parse path (String.ofList (text ++ '"' :: (other ++ '"' :: rest)))).imports := by
  have known := rustStyle_known rust
  have quote : LongQuote rustStyle '"' := longQuote known (List.mem_singleton_self _)
  have regular := Language.regular known
  have scan : Scan rustStyle ('"' :: (body ++ '"' :: rest)) [] text found := .of_begun begun whole
  have changed : Scan rustStyle ('"' :: (other ++ '"' :: rest)) [] text found :=
    scan.change regular.short quote.newline (fun documented => by simp [quote.prose] at documented) _
  have length := quotation_length found
  rw [parse_eq known, parse_eq known, Scan.cut_around scan quote single escaped open_ plain,
    Scan.cut_around changed quote single escaped open_other plain_other, rust]
  unfold SourceRecord.ofTokens
  simp only [flatMap_kept_around, quotation_around]
  rw [Imports.written_around length finished inner inner_other]

/-- A source with a help text in it. -/
def helpTextSource (body : String) : List Char :=
  "pub use crate::a;\nconst HELP: &str = ".toList ++ '"' :: (body.toList ++ '"' :: ";\nmod d;".toList)

/-- A help text may hold a statement that is ended, and the start of one with only a word in it. -/
theorem finished_imports_kept_of_help :
    Language.ofPath "a.rs" = .rust ∧
      ("pub use crate::a;\nconst HELP: &str = ".toList.map .code) <+:
        tokens rustStyle (helpTextSource "\nuse super::b;\nmod c") ∧
      (SourceRecord.parse "a.rs" (String.ofList (helpTextSource "\nuse super::b;\nmod c"))).imports =
        (SourceRecord.parse "a.rs" (String.ofList (helpTextSource "mod"))).imports ∧
      (SourceRecord.parse "a.rs" (String.ofList (helpTextSource "mod"))).imports = ["crate::a", "self::d"] := by
  have rust : Language.ofPath "a.rs" = .rust := by decide +kernel
  have begun : ("pub use crate::a;\nconst HELP: &str = ".toList.map .code) <+:
      tokens rustStyle (helpTextSource "\nuse super::b;\nmod c") := by
    decide +kernel
  have kept := finished_imports_kept "a.rs" rust _ ";\nmod d;".toList
    "\nuse super::b;\nmod c".toList "mod".toList _ begun (by decide) (by decide) (by decide) (by decide) (by decide)
    (by decide) (by decide) (by decide) (by decide) (by decide)
  exact ⟨rust, begun, kept, by decide +kernel⟩

/-- A source with a literal as an argument. -/
def printArgumentSource (body : String) : List Char :=
  "fn main() \x7b\n    print(".toList ++
    '"' :: (body.toList ++ '"' :: ")\n\x7d\n\nuse super::profile::Profile;\n".toList)

/-- A `use` that starts in a literal and has no semicolon there takes the next one, and the import in front of that
one with it. -/
theorem unfinished_use_hides_import :
    Boundary rustStyle "fn main() \x7b\n    print(".toList
        ('"' :: ("usage:\nuse self::x".toList ++ '"' :: ")\n\x7d\n\nuse super::profile::Profile;\n".toList)) ∧
      (SourceRecord.parse "a.rs" (String.ofList (printArgumentSource "usage:\nuse self::x"))).imports = [] ∧
      (SourceRecord.parse "a.rs" (String.ofList (printArgumentSource "usage:"))).imports =
        ["super::profile::Profile"] := by
  have boundary : Boundary rustStyle "fn main() \x7b\n    print(".toList
      ('"' :: ("usage:\nuse self::x".toList ++ '"' :: ")\n\x7d\n\nuse super::profile::Profile;\n".toList)) :=
    ⟨"fn main() \x7b\n    print(".toList.map .code, by decide +kernel, by decide⟩
  exact ⟨boundary, by decide +kernel, by decide +kernel⟩

end ReviewContext.Source
