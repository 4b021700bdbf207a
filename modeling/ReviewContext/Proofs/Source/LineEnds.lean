import Mathlib.Data.List.Infix
import ReviewContext.Proofs.Source.ReturnImports

/-! # Line ends are not read

A source without backslashes has the same record whether its lines end with newlines or with carriage returns and
newlines, but for two forms of import. What is left of it without comments has a carriage return in front of some
newlines, no statement starts at either, and every reader finds the same with and without them.
-/

namespace ReviewContext.Source

variable {α β : Type} {f : α → β} {anchor : Anchor} {read : Reader α}

/-! ## Searching with carriage returns -/

/-- No statement starts with the end of a line. -/
structure Silent (read : Reader α) : Prop where
  return_ : ∀ cs, read ('\r' :: cs) = none
  newline : ∀ cs, read ('\n' :: cs) = none

/-- What is left of a text from each place where a statement is looked for. -/
def Anchor.starts (anchor : Anchor) (opens : Bool) (cs : List Char) : List (List Char) :=
  match anchor with
  | .line indent => lineStarts indent opens cs
  | .word | .anywhere => cs.tails

section Starts

variable {opens : Bool} {c : Char} {cs left part : List Char}

private theorem mem_starts_head : c :: cs ∈ anchor.starts true (c :: cs) := by
  cases anchor with
  | line indent => exact List.mem_append_left _ List.mem_cons_self
  | word | anywhere => exact (List.mem_tails _ _).mpr List.suffix_rfl

private theorem mem_starts_tail (starts : part ∈ anchor.starts (anchor.opensAfter opens c) cs) :
    part ∈ anchor.starts opens (c :: cs) := by
  cases anchor with
  | line indent => exact List.mem_append_right _ starts
  | word | anywhere =>
    apply (List.mem_tails _ _).mpr
    exact ((List.mem_tails _ _).mp starts).trans (List.suffix_cons c cs)

private theorem mem_starts_behind (starts : part ∈ anchor.starts anchor.opensAfterStatement left) (ends : left <:+ cs) :
    part ∈ anchor.starts opens cs := by
  cases anchor with
  | line indent =>
    obtain ⟨front, rfl⟩ := ends
    induction front generalizing opens with
    | nil => exact mem_lineStarts_of_shut starts opens
    | cons c front ih => exact List.mem_append_right _ ih
  | word | anywhere =>
    apply (List.mem_tails _ _).mpr
    exact ((List.mem_tails _ _).mp starts).trans ends

end Starts

section Marks

variable {c : Char} {cs : List Char}

private theorem marksLeft_nil (cs : List Char) : marksLeft cs [] = [] := by
  cases cs <;> rfl

private theorem marksLeft_return (cs : List Char) (quoted : List Bool) :
    marksLeft ('\r' :: cs) quoted = marksLeft cs quoted.tail := by
  cases quoted with
  | nil => rw [List.tail_nil, marksLeft_nil, marksLeft_nil]
  | cons mark marks => rfl

private theorem headD_marksLeft (other : c ≠ '\r') (quoted : List Bool) :
    (marksLeft (c :: cs) quoted).headD false = quoted.headD false := by
  cases quoted with
  | nil => rfl
  | cons mark marks => rw [marksLeft, if_neg other]; rfl

private theorem tail_marksLeft (other : c ≠ '\r') (quoted : List Bool) :
    (marksLeft (c :: cs) quoted).tail = marksLeft cs quoted.tail := by
  cases quoted with
  | nil => rw [List.tail_nil, marksLeft_nil, marksLeft_nil, List.tail_nil]
  | cons mark marks => rw [marksLeft, if_neg other]; rfl

private theorem drop_marksLeft (front : List Char) (quoted : List Bool) :
    (marksLeft (front ++ cs) quoted).drop (unreturned front).length = marksLeft cs (quoted.drop front.length) := by
  induction front generalizing quoted with
  | nil => rfl
  | cons c front ih =>
    rw [List.cons_append, List.length_cons, ← List.drop_tail]
    by_cases return_ : c = '\r'
    · subst return_
      rw [marksLeft_return, unreturned_return, ih]
    · rw [unreturned_cons return_, List.length_cons, ← List.drop_tail, tail_marksLeft return_, ih]

end Marks

private theorem opensAfter_lineEnd (opens : Bool) :
    anchor.opensAfter (anchor.opensAfter opens '\r') '\n' = anchor.opensAfter opens '\n' := by
  cases anchor <;> rfl

private theorem Silent.passed (silent : Silent read) (opens : Bool) (cs : List Char) (quoted : List Bool) :
    statementsFrom anchor read opens 0 ('\r' :: '\n' :: cs) quoted =
        statementsFrom anchor read (anchor.opensAfter opens '\n') 0 cs quoted.tail.tail ∧
      statementsFrom anchor read opens 0 ('\n' :: cs) quoted =
        statementsFrom anchor read (anchor.opensAfter opens '\n') 0 cs quoted.tail := by
  have return_ (opens : Bool) : (if opens then read ('\r' :: '\n' :: cs) else none) = none := by
    rw [silent.return_, ite_self]
  have newline (opens : Bool) : (if opens then read ('\n' :: cs) else none) = none := by
    rw [silent.newline, ite_self]
  constructor
  · rw [statementsFrom_passed (return_ _), statementsFrom_passed (newline _), opensAfter_lineEnd]
  · rw [statementsFrom_passed (newline _)]

/-- What a statement took is skipped. -/
theorem statementsFrom_left (opens : Bool) (front back : List Char) (quoted : List Bool) :
    statementsFrom anchor read opens ((front ++ back).length - back.length) (front ++ back) quoted =
      statementsFrom anchor read opens 0 back (quoted.drop front.length) := by
  have skip : (front ++ back).length - back.length = front.length + 0 := by
    rw [List.length_append]
    omega
  rw [skip, statementsFrom_skip]

/-- The search finds the same in a text with and without its carriage returns. -/
theorem statementsFrom_unreturned (silent : Silent read) {cs : List Char} (paired : Paired cs) (opens : Bool)
    (steady : ∀ part ∈ anchor.starts opens cs, Steady f read part) (quoted : List Bool) :
    (statementsFrom anchor read opens 0 (unreturned cs) (marksLeft cs quoted)).map f =
      (statementsFrom anchor read opens 0 cs quoted).map f := by
  match cs, paired with
  | _, .nil => rfl
  | _, @Paired.pair cs tail =>
    have later := statementsFrom_unreturned silent tail (anchor.opensAfter opens '\n')
      (fun part starts => steady part (mem_starts_tail (mem_starts_tail (opensAfter_lineEnd opens ▸ starts))))
      quoted.tail.tail
    have newline : '\n' ≠ '\r' := by decide
    rw [unreturned_return, unreturned_cons newline, marksLeft_return, (silent.passed ..).1, (silent.passed ..).2,
      tail_marksLeft newline, later]
  | _, @Paired.cons c cs other tail =>
    rw [unreturned_cons other]
    cases found : if opens then read (c :: cs) else none with
    | none =>
      have found' : (if opens then read (c :: unreturned cs) else none) = none := by
        cases opens with
        | false => rfl
        | true =>
          rw [if_pos rfl] at found ⊢
          rw [← unreturned_cons other]
          exact (steady _ mem_starts_head).silent found
      rw [statementsFrom_passed found, statementsFrom_passed found', tail_marksLeft other]
      exact statementsFrom_unreturned silent tail _ (fun part starts => steady part (mem_starts_tail starts)) _
    | some out =>
      obtain ⟨name, left⟩ := out
      obtain ⟨rfl, taken⟩ := Option.ite_none_right_eq_some.mp found
      have here := steady _ mem_starts_head
      obtain ⟨name', taken', named⟩ := here.finds taken
      have ends : left <:+ cs := here.ends name left taken
      have shorter := ends.length_le
      have later := statementsFrom_unreturned silent (tail.suffix ends) anchor.opensAfterStatement
        (fun part starts => steady part (mem_starts_behind starts (ends.trans (List.suffix_cons c cs))))
      have found' : (if true then read (c :: unreturned cs) else none) = some (name', unreturned left) := by
        rw [if_pos rfl, ← unreturned_cons other]
        exact taken'
      rw [statementsFrom_found found, statementsFrom_found found', headD_marksLeft other, tail_marksLeft other]
      obtain ⟨skipped, rfl⟩ := ends
      rw [unreturned_append, statementsFrom_left, statementsFrom_left, drop_marksLeft, List.map_append, List.map_append,
        later]
      congr 1
      split
      · rfl
      · exact congrArg ([·]) named
termination_by cs.length
decreasing_by
  all_goals
    simp only [List.length_cons]
    omega

private theorem statements_unreturned (anchor : Anchor) {read : Reader α} (silent : Silent read) {cs : List Char}
    (paired : Paired cs) (steady : ∀ part ∈ anchor.starts true cs, Steady id read part) (quoted : List Bool) :
    statements anchor read (unreturned cs) (marksLeft cs quoted) = statements anchor read cs quoted := by
  have found := statementsFrom_unreturned silent paired true steady quoted
  rwa [List.map_id, List.map_id] at found

private theorem suffix_of_mem_starts {cs part : List Char} {opens : Bool} (starts : part ∈ anchor.starts opens cs) :
    part <:+ cs := by
  cases anchor with
  | word | anywhere => exact (List.mem_tails _ _).mp starts
  | line indent =>
    change part ∈ lineStarts indent opens cs at starts
    induction cs generalizing opens with
    | nil =>
      rw [lineStarts] at starts
      split at starts
      · rw [List.mem_singleton.mp starts]
      · cases starts
    | cons c cs ih =>
      rw [lineStarts] at starts
      rcases List.mem_append.mp starts with here | later
      · split at here
        · rw [List.mem_singleton.mp here]
        · cases here
      · exact (ih later).trans (List.suffix_cons c cs)

/-- A reader that is steady everywhere finds the same. -/
theorem statements_of_steady (anchor : Anchor) {read : Reader α} (silent : Silent read)
    (steady : ∀ {cs}, Paired cs → Steady id read cs) {cs : List Char} (paired : Paired cs) (quoted : List Bool) :
    statements anchor read (unreturned cs) (marksLeft cs quoted) = statements anchor read cs quoted :=
  statements_unreturned anchor silent paired (fun _ starts => steady (paired.suffix (suffix_of_mem_starts starts)))
    quoted

/-- No statement of the text is read in another way for the carriage returns in it. -/
def Unbroken (language : Language) (text : List Char) : Prop :=
  match language with
  | .javascript | .typescript => ∀ part ∈ lineStarts Text.isBlank true text,
      ¬ Imports.Crowded "import" part ∧ ¬ Imports.Crowded "export" part
  | .python => ∀ part ∈ lineStarts Imports.isSpaceOrTab true text, ¬ Imports.EndsInReturn part
  | .rust | .go | .swift | .kotlin | .java | .unknown => True

section Written

variable {language : Language} {text : List Char}

private theorem Exports.written_unreturned (paired : Paired text) (quoted : List Bool) :
    Exports.written language (unreturned text) (marksLeft text quoted) = Exports.written language text quoted := by
  cases language with
  | javascript | typescript =>
    exact statements_of_steady _ ⟨fun _ => rfl, fun _ => rfl⟩ Exports.script?_steady paired quoted
  | rust => exact statements_of_steady _ ⟨fun _ => rfl, fun _ => rfl⟩ Exports.pub?_steady paired quoted
  | go =>
    exact statements_of_steady _ ⟨fun _ => rfl, fun _ => rfl⟩ (Exports.declaration?_steady (by decide)) paired quoted
  | swift => exact statements_of_steady _ ⟨fun _ => rfl, fun _ => rfl⟩ Exports.attributed?_steady paired quoted
  | kotlin => exact statements_of_steady _ ⟨fun _ => rfl, fun _ => rfl⟩ Exports.implicit?_steady paired quoted
  | java => exact statements_of_steady _ ⟨fun _ => rfl, fun _ => rfl⟩ Exports.explicit?_steady paired quoted
  | python => exact statements_of_steady _ ⟨fun _ => rfl, fun _ => rfl⟩ Exports.toplevel?_steady paired quoted
  | unknown => rfl

namespace Imports

/-- The imports of a group are found in what the group names, which has the carriage returns in it. -/
theorem groups_unreturned (paired : Paired text) (quoted : List Bool) :
    (statements indented group? (unreturned text) (marksLeft text quoted)).flatMap
        (fun group => statements .anywhere doubleQuoted? group []) =
      (statements indented group? text quoted).flatMap
        fun group => statements .anywhere doubleQuoted? group [] := by
  have alike (group : List Char) (paired : Paired group) :
      statements .anywhere doubleQuoted? (unreturned group) [] = statements .anywhere doubleQuoted? group [] := by
    have same := statements_of_steady .anywhere ⟨fun _ => rfl, fun _ => rfl⟩ doubleQuoted?_steady paired []
    rwa [marksLeft_nil] at same
  have steady (part : List Char) (starts : part ∈ indented.starts true text) :
      Steady (fun group => statements .anywhere doubleQuoted? group []) group? part :=
    group?_steady alike (paired.suffix (suffix_of_mem_starts starts))
  have groups := statementsFrom_unreturned ⟨fun _ => rfl, fun _ => rfl⟩ paired true steady quoted
  exact congrArg List.flatten groups

private theorem written_of_script_unreturned (script : language = .javascript ∨ language = .typescript)
    (paired : Paired text)
    (roomy : ∀ part ∈ lineStarts Text.isBlank true text, ¬ Crowded "import" part ∧ ¬ Crowded "export" part)
    (quoted : List Bool) :
    written language (unreturned text) (marksLeft text quoted) = written language text quoted := by
  have imported := statements_unreturned indented ⟨fun _ => rfl, fun _ => rfl⟩ paired
    (fun part starts => namesFrom?_steady (by decide) (paired.suffix (suffix_of_mem_starts starts))
      (roomy part starts).1) quoted
  have exported := statements_unreturned indented ⟨fun _ => rfl, fun _ => rfl⟩ paired
    (fun part starts => namesFrom?_steady (by decide) (paired.suffix (suffix_of_mem_starts starts))
      (roomy part starts).2) quoted
  have effect := statements_of_steady indented ⟨fun _ => rfl, fun _ => rfl⟩ bare?_steady paired quoted
  have call (word : String) (letters : '\n' ∉ word.toList ∧ '\r' ∉ word.toList) (silent : Silent (call? word)) :=
    statements_of_steady .word silent (call?_steady letters) paired quoted
  rw [written_of_script script, written_of_script script, imported, exported, effect,
    call "require" (by decide) ⟨fun _ => rfl, fun _ => rfl⟩, call "import" (by decide) ⟨fun _ => rfl, fun _ => rfl⟩]

private theorem written_of_python_unreturned (paired : Paired text)
    (ends : ∀ part ∈ lineStarts isSpaceOrTab true text, ¬ EndsInReturn part) (quoted : List Bool) :
    written .python (unreturned text) (marksLeft text quoted) = written .python text quoted := by
  have module := statements_of_steady indented ⟨fun _ => rfl, fun _ => rfl⟩ fromModule?_steady paired quoted
  have plain := statements_of_steady indented ⟨fun _ => rfl, fun _ => rfl⟩ plain?_steady paired quoted
  have package := statements_unreturned (.line isSpaceOrTab) ⟨fun _ => rfl, fun _ => rfl⟩ paired
    (fun part starts => fromPackage?_steady (paired.suffix (suffix_of_mem_starts starts)) (ends part starts)) quoted
  unfold written
  dsimp only
  rw [module, plain, package]

private theorem written_unreturned (paired : Paired text) (unbroken : Unbroken language text) (quoted : List Bool) :
    written language (unreturned text) (marksLeft text quoted) = written language text quoted := by
  cases language with
  | javascript => exact written_of_script_unreturned (.inl rfl) paired unbroken quoted
  | typescript => exact written_of_script_unreturned (.inr rfl) paired unbroken quoted
  | rust =>
    have use := statements_of_steady indented ⟨fun _ => rfl, fun _ => rfl⟩ use?_steady paired quoted
    have mod := statements_of_steady indented ⟨fun _ => rfl, fun _ => rfl⟩ mod?_steady paired quoted
    exact congrArg₂ (· ++ ·) use mod
  | go =>
    have single := statements_of_steady indented ⟨fun _ => rfl, fun _ => rfl⟩ single?_steady paired quoted
    exact congrArg₂ (· ++ ·) single (groups_unreturned paired quoted)
  | python => exact written_of_python_unreturned paired unbroken quoted
  | swift | kotlin | java | unknown => rfl

end Imports

end Written

private theorem SameLines.ofTokens_eq {language : Language} {found other : List Token} (lines : SameLines found other)
    (unbroken : Unbroken language (other.flatMap Token.kept)) :
    SourceRecord.ofTokens language other = SourceRecord.ofTokens language found := by
  have imports := Imports.written_unreturned lines.paired unbroken (quotation other)
  have exports : Exports.written language _ _ = _ := Exports.written_unreturned lines.paired (quotation other)
  unfold SourceRecord.ofTokens
  dsimp only
  rw [← lines.text, ← lines.marks, imports, exports]

/-- A source without backslashes has the same record with a carriage return in front of each of its newlines, if none
is taken for something imported and none stands behind a list of siblings. -/
theorem line_ends_unread (path : String) (source : List Char) (absent : '\r' ∉ source) (plain : '\\' ∉ source)
    (unbroken : ∀ style, (Language.ofPath path).commentStyle? = some style →
      Unbroken (Language.ofPath path) (strip style (returned source)).text) :
    SourceRecord.parse path (String.ofList (returned source)) = SourceRecord.parse path (String.ofList source) := by
  unfold SourceRecord.parse
  generalize Language.ofPath path = language at unbroken ⊢
  cases known : language.commentStyle? with
  | none => simp only [known]
  | some style =>
    have lines : SameLines (tokens style source) (tokens style (returned source)) :=
      cut_returned (Language.regular known) (returnFree known) [] absent plain
    simp only [known, String.toList_ofList]
    exact lines.ofTokens_eq (unbroken style known)

/-- A module with a comment behind its siblings, so that no carriage return stands there. -/
def siblingModule : List Char :=
  "from . import a, b # c\nfrom .d import (\n    e,\n)\nclass F: pass\n".toList

/-- Siblings in front of a comment, a list in parentheses and a class are read the same with carriage returns in front
of the newlines. -/
theorem line_ends_unread_of_package :
    '\r' ∉ siblingModule ∧ '\\' ∉ siblingModule ∧
      SourceRecord.parse "a.py" (String.ofList siblingModule) = ⟨.python, [".", ".d", ".a", ".b"], ["F"]⟩ ∧
      SourceRecord.parse "a.py" (String.ofList (returned siblingModule)) =
        SourceRecord.parse "a.py" (String.ofList siblingModule) := by
  have python : Language.ofPath "a.py" = .python := by decide +kernel
  have absent : '\r' ∉ siblingModule := by decide
  have plain : '\\' ∉ siblingModule := by decide
  have unbroken (style : CommentStyle) (known : (Language.ofPath "a.py").commentStyle? = some style) :
      Unbroken (Language.ofPath "a.py") (strip style (returned siblingModule)).text := by
    rw [python] at known ⊢
    obtain rfl := Option.some.inj known
    have ends : ∀ part ∈ lineStarts Imports.isSpaceOrTab true
        (strip ⟨['#'], .absent, ['"', '\''], [], true⟩ (returned siblingModule)).text, ¬ Imports.EndsInReturn part := by
      decide +kernel
    exact ends
  exact ⟨absent, plain, by decide +kernel, line_ends_unread "a.py" siblingModule absent plain unbroken⟩

/-- A carriage return hides the siblings whose list it stands behind, and is taken for what a script imports. -/
theorem line_ends_read :
    (SourceRecord.parse "a.py" (String.ofList "from . import helpers\n".toList)).imports = [".", ".helpers"] ∧
      (SourceRecord.parse "a.py" (String.ofList (returned "from . import helpers\n".toList))).imports = ["."] ∧
      (SourceRecord.parse "a.js" (String.ofList "import \nfrom './a'".toList)).imports = [] ∧
      (SourceRecord.parse "a.js" (String.ofList (returned "import \nfrom './a'".toList))).imports = ["./a"] :=
  ⟨by decide +kernel, by decide +kernel, by decide +kernel, by decide +kernel⟩

end ReviewContext.Source
